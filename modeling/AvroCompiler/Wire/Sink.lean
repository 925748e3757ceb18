namespace AvroCompiler.Wire

structure Sink where
  written : List UInt8 := []
  /-- How many more bytes are taken; nothing is refused without a limit. -/
  room : Option Nat := none
  deriving DecidableEq, Repr

inductive WriteFault where
  | full
  deriving DecidableEq, Repr

def WriteFault.message : WriteFault → String
  | .full => "failed to write whole buffer"

/-- A computation that writes. What it wrote before it failed stays written. -/
abbrev Writer := ExceptT WriteFault (StateM Sink) Unit

def Writer.into (writer : Writer) (sink : Sink) : Except WriteFault Unit × Sink :=
  writer sink

def put (bytes : List UInt8) : Writer := fun sink =>
  match sink.room with
  | none => (.ok (), { sink with written := sink.written ++ bytes })
  | some room =>
    let sink : Sink := ⟨sink.written ++ bytes.take room, some (room - bytes.length)⟩
    if bytes.length ≤ room then (.ok (), sink) else (.error .full, sink)

def putByte (byte : UInt8) : Writer := put [byte]

end AvroCompiler.Wire
