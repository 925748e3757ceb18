namespace AvroCompiler

inductive Utf8Fault where
  | invalid (length index : Nat)
  | incomplete (index : Nat)
  deriving DecidableEq, Repr

def Utf8Fault.message : Utf8Fault → String
  | .invalid length index => s!"invalid utf-8 sequence of {length} bytes from index {index}"
  | .incomplete index => s!"incomplete utf-8 byte sequence from index {index}"

def utf8Char (c : Char) : List UInt8 :=
  let n := c.toNat
  if n < 0x80 then [.ofNat n]
  else if n < 0x800 then [.ofNat (0xC0 + n / 64), .ofNat (0x80 + n % 64)]
  else if n < 0x10000 then
    [.ofNat (0xE0 + n / 4096), .ofNat (0x80 + n / 64 % 64), .ofNat (0x80 + n % 64)]
  else
    [.ofNat (0xF0 + n / 262144), .ofNat (0x80 + n / 4096 % 64), .ofNat (0x80 + n / 64 % 64),
     .ofNat (0x80 + n % 64)]

def utf8Bytes (text : String) : List UInt8 :=
  text.toList.flatMap utf8Char

def isContinuation (b : UInt8) : Bool :=
  0x80 ≤ b && b ≤ 0xBF

def fitsThree (a b : UInt8) : Bool :=
  if a = 0xE0 then 0xA0 ≤ b && b ≤ 0xBF
  else if a = 0xED then 0x80 ≤ b && b ≤ 0x9F
  else isContinuation b

def fitsFour (a b : UInt8) : Bool :=
  if a = 0xF0 then 0x90 ≤ b && b ≤ 0xBF
  else if a = 0xF4 then 0x80 ≤ b && b ≤ 0x8F
  else isContinuation b

def decodeUtf8Chars (index : Nat) : List UInt8 → Except Utf8Fault (List Char)
  | [] => .ok []
  | a :: r =>
    if a < 0x80 then do
      return Char.ofNat a.toNat :: (← decodeUtf8Chars (index + 1) r)
    else if a < 0xC2 ∨ 0xF4 < a then .error (.invalid 1 index)
    else if a < 0xE0 then
      match r with
      | [] => .error (.incomplete index)
      | b :: r =>
        if ¬isContinuation b then .error (.invalid 1 index)
        else do
          return Char.ofNat ((a.toNat - 0xC0) * 64 + (b.toNat - 0x80)) ::
            (← decodeUtf8Chars (index + 2) r)
    else if a < 0xF0 then
      match r with
      | [] => .error (.incomplete index)
      | b :: r =>
        if ¬fitsThree a b then .error (.invalid 1 index)
        else
          match r with
          | [] => .error (.incomplete index)
          | c :: r =>
            if ¬isContinuation c then .error (.invalid 2 index)
            else do
              return Char.ofNat ((a.toNat - 0xE0) * 4096 + (b.toNat - 0x80) * 64 +
                (c.toNat - 0x80)) :: (← decodeUtf8Chars (index + 3) r)
    else
      match r with
      | [] => .error (.incomplete index)
      | b :: r =>
        if ¬fitsFour a b then .error (.invalid 1 index)
        else
          match r with
          | [] => .error (.incomplete index)
          | c :: r =>
            if ¬isContinuation c then .error (.invalid 2 index)
            else
              match r with
              | [] => .error (.incomplete index)
              | d :: r =>
                if ¬isContinuation d then .error (.invalid 3 index)
                else do
                  return Char.ofNat ((a.toNat - 0xF0) * 262144 + (b.toNat - 0x80) * 4096 +
                    (c.toNat - 0x80) * 64 + (d.toNat - 0x80)) :: (← decodeUtf8Chars (index + 4) r)

def decodeUtf8 (bytes : List UInt8) : Except Utf8Fault String :=
  (decodeUtf8Chars 0 bytes).map String.ofList

/-- Decodes all bytes. A replacement character stands for each sequence that no character has. -/
def decodeLossyChars : List UInt8 → List Char
  | [] => []
  | b :: rest =>
    match decodeUtf8Chars 0 (b :: rest) with
    | .ok cs => cs
    | .error (.incomplete index) => goodChars index (b :: rest) ++ ['\uFFFD']
    | .error (.invalid length index) =>
      goodChars index (b :: rest) ++ '\uFFFD' :: decodeLossyChars (rest.drop (index + length - 1))
termination_by bytes => bytes.length
where
  goodChars (count : Nat) (bytes : List UInt8) : List Char :=
    (decodeUtf8Chars 0 (bytes.take count)).toOption.getD []

def decodeLossy (bytes : List UInt8) : String :=
  String.ofList (decodeLossyChars bytes)

end AvroCompiler
