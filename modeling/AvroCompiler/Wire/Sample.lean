import AvroCompiler.Wire.Primitive
import AvroCompiler.Wire.Blocks
import AvroCompiler.Keyed

namespace AvroCompiler.Wire

structure Md5 where
  bytes : List UInt8
  length_eq : bytes.length = 16

def Md5.ofBytes? (bytes : List UInt8) : Option Md5 :=
  if h : bytes.length = 16 then some ⟨bytes, h⟩ else none

inductive Suit where
  | spades
  | hearts
  | diamonds
  | clubs
  deriving DecidableEq, Repr

namespace Suit

def ofOrdinal? (ordinal : Int64) : Option Suit :=
  if ordinal = 0 then some .spades
  else if ordinal = 1 then some .hearts
  else if ordinal = 2 then some .diamonds
  else if ordinal = 3 then some .clubs
  else none

def ordinal : Suit → Int64
  | .spades => 0
  | .hearts => 1
  | .diamonds => 2
  | .clubs => 3

def symbol : Suit → String
  | .spades => "SPADES"
  | .hearts => "HEARTS"
  | .diamonds => "DIAMONDS"
  | .clubs => "CLUBS"

end Suit

structure Sample where
  count : Int32
  total : Int64
  ratio : UInt32
  precise : UInt64
  flag : Bool
  payload : List UInt8
  label : String
  digest : Md5
  suit : Suit
  scores : List Int32
  tags : Keyed String String
  nickname : Option String

def optionBranch {α : Type} : Option α → Nat
  | none => 0
  | some _ => 1

def writeMd5 (digest : Md5) : Writer :=
  put digest.bytes

def writeSuit (suit : Suit) : Writer :=
  encodeInt suit.ordinal

def writeScores (scores : List Int32) : Writer :=
  writeBlocks writeInt scores

def writeEntry (entry : String × String) : Writer := do
  writeString entry.1
  writeString entry.2

/-- A map is written in the order in which its entries are visited. -/
def writeTags (entries : List (String × String)) : Writer :=
  writeBlocks writeEntry entries

def writeNickname : Option String → Writer
  | none => do
    encodeInt 0
    writeNull
  | some text => do
    encodeInt 1
    writeString text

def Sample.writeVisiting (sample : Sample) (entries : List (String × String)) : Writer := do
  writeInt sample.count
  writeLong sample.total
  writeFloat sample.ratio
  writeDouble sample.precise
  writeBool sample.flag
  writeBytes sample.payload
  writeString sample.label
  writeMd5 sample.digest
  writeSuit sample.suit
  writeScores sample.scores
  writeTags entries
  writeNickname sample.nickname

def Sample.write (sample : Sample) : Writer :=
  sample.writeVisiting sample.tags.entries

def nicknameBytes : Option String → List UInt8
  | none => intBytes 0
  | some text => intBytes 1 ++ stringBytes text

def Sample.bytesVisiting (sample : Sample) (entries : List (String × String)) : List UInt8 :=
  intBytes sample.count.toInt64 ++ intBytes sample.total ++ floatBytes sample.ratio ++
  doubleBytes sample.precise ++ boolBytes sample.flag ++ sizedBytes sample.payload ++
  stringBytes sample.label ++ sample.digest.bytes ++ intBytes sample.suit.ordinal ++
  blockBytes (fun n => intBytes n.toInt64) sample.scores ++
  blockBytes (fun entry => stringBytes entry.1 ++ stringBytes entry.2) entries ++
  nicknameBytes sample.nickname

def readMd5 : Decoder Md5 := do
  match Md5.ofBytes? (← .exactly 16) with
  | some digest => return digest
  | none => .fail .endOfInput

def readSuit : Decoder Suit := do
  let ordinal ← decodeInt
  match Suit.ofOrdinal? ordinal with
  | some suit => return suit
  | none => .fail (.invalidOrdinal "Suit" ordinal)

def readScores : Decoder (List Int32) :=
  readBlocks readInt

def readEntry : Decoder (String × String) := do
  let key ← readString
  return (key, ← readString)

/-- The entries as a map. Of a repeated key the last value stays. -/
def tagsOf (entries : List (String × String)) : Keyed String String :=
  entries.foldl (fun tags entry => tags.insert entry.1 entry.2) ∅

def readTags : Decoder (Keyed String String) := do
  return tagsOf (← readBlocks readEntry)

def readNickname : Decoder (Option String) := do
  let index ← decodeInt
  if index = 0 then
    readNull
    return none
  else if index = 1 then return some (← readString)
  else .fail (.invalidBranch "UnionNullString" index)

def readSample : Decoder Sample := do
  let count ← readInt
  let total ← readLong
  let ratio ← readFloat
  let precise ← readDouble
  let flag ← readBool
  let payload ← readBytes
  let label ← readString
  let digest ← readMd5
  let suit ← readSuit
  let scores ← readScores
  let tags ← readTags
  let nickname ← readNickname
  return { count, total, ratio, precise, flag, payload, label, digest, suit, scores, tags, nickname }

end AvroCompiler.Wire
