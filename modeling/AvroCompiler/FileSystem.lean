import AvroCompiler.Disk.Basic

namespace AvroCompiler

class FileSystem (σ : Type) where
  work : σ → String
  isDirectory : σ → String → Bool
  isFile : σ → String → Bool
  holds : σ → String → Bool
  readText : σ → String → Except FileFault String
  /-- The files below a directory, depth first and by name, or the path where the walk fails. -/
  filesBelow : σ → String → Except (String × FileFault) (List Location)

/-- Where files are written. What is done before a fault may stay. -/
structure Output (m : Type → Type) where
  makeDirectories : String → m (Except FileFault Unit)
  writeText : String → String → m (Except FileFault Unit)

namespace Disk

instance : FileSystem Disk where
  work := work
  isDirectory := isDirectory
  isFile := isFile
  holds := holds
  readText := readText
  filesBelow disk path := .ok ((disk.filesBelow path).map Prod.fst)

def output : Output (StateM Disk) where
  makeDirectories path disk := disk.makeDirectories path
  writeText path text disk :=
    match disk.writeText path text with
    | .ok written => (.ok (), written)
    | .error fault => (.error fault, disk)

end Disk

end AvroCompiler
