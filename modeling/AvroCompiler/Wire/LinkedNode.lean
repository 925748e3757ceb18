import AvroCompiler.Wire.Primitive

namespace AvroCompiler.Wire

inductive LinkedNode where
  | last (value : Int32)
  | link (value : Int32) (next : LinkedNode)
  deriving DecidableEq

namespace LinkedNode

def values : LinkedNode → List Int32
  | .last value => [value]
  | .link value next => value :: next.values

def ofValues? : List Int32 → Option LinkedNode
  | [] => none
  | [value] => some (.last value)
  | value :: rest => (ofValues? rest).map (.link value)

def nextBranch : LinkedNode → Nat
  | .last _ => 0
  | .link _ _ => 1

def write : LinkedNode → Writer
  | .last value => do
    writeInt value
    encodeInt 0
  | .link value next => do
    writeInt value
    encodeInt 1
    next.write

def bytes : LinkedNode → List UInt8
  | .last value => intBytes value.toInt64 ++ intBytes 0
  | .link value next => intBytes value.toInt64 ++ intBytes 1 ++ next.bytes

def readFrom (source : Source) : Except Fault LinkedNode × Source :=
  match _value : readInt.run source with
  | (.error fault, rest) => (.error fault, rest)
  | (.ok value, rest) =>
    match _index : decodeInt.run rest with
    | (.error fault, rest) => (.error fault, rest)
    | (.ok index, rest) =>
      if index = 0 then (.ok (.last value), rest)
      else if index = 1 then
        match readFrom rest with
        | (.ok next, rest) => (.ok (.link value next), rest)
        | (.error fault, rest) => (.error fault, rest)
      else (.error (.invalidBranch "UnionNullLinkedNode" index), rest)
termination_by source.bytes.length
decreasing_by exact Nat.lt_trans (decodeInt_consumes _index) (readInt_consumes _value)

theorem readFrom_shrinks (source : Source) :
    (readFrom source).2.bytes.length ≤ source.bytes.length := by
  fun_induction readFrom source with
  | case1 source fault rest hv =>
    have h := readInt.shrinks source
    rw [hv] at h
    exact h
  | case2 source value rest hv fault rest' hi =>
    have h := decodeInt.shrinks rest
    rw [hi] at h
    exact Nat.le_trans h (Nat.le_of_lt (readInt_consumes hv))
  | case3 source value rest hv rest' hi =>
    exact Nat.le_of_lt (Nat.lt_trans (decodeInt_consumes hi) (readInt_consumes hv))
  | case4 source value rest hv rest' next rest'' hn hi _ ih =>
    rw [hn] at ih
    have := decodeInt_consumes hi
    have := readInt_consumes hv
    dsimp only at ih ⊢
    omega
  | case5 source value rest hv rest' fault rest'' hn hi _ ih =>
    rw [hn] at ih
    have := decodeInt_consumes hi
    have := readInt_consumes hv
    dsimp only at ih ⊢
    omega
  | case6 source value rest hv index rest' hi =>
    exact Nat.le_of_lt (Nat.lt_trans (decodeInt_consumes hi) (readInt_consumes hv))

def read : Decoder LinkedNode := ⟨readFrom, readFrom_shrinks⟩

end LinkedNode

end AvroCompiler.Wire
