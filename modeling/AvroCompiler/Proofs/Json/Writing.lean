import AvroCompiler.Json.Reader

namespace AvroCompiler.Json

/-- A character that stands for itself between quotes. -/
def isPlainChar (c : Char) : Bool :=
  c ≠ '"' && c ≠ '\\' && 0x20 ≤ c.toNat

def isPlain (text : String) : Bool :=
  text.toList.all isPlainChar

def Scalar.isPlain : Scalar → Bool
  | .null | .bool _ => true
  | .number (.integer value) => 0 ≤ value && value < 0x10000000000000000
  | .number (.double _) => false

def quoted (text : String) : List Char :=
  '"' :: (text.toList ++ ['"'])

mutual

/-- The shortest text of a value. -/
def Value.chars : Value → List Char
  | .scalar value => value.text.toList
  | .string text => quoted text
  | .array [] => ['[', ']']
  | .array (item :: items) => '[' :: (item.chars ++ itemChars items)
  | .object [] => ['\x7b', '\x7d']
  | .object ((key, value) :: members) =>
    '\x7b' :: (quoted key ++ ':' :: (value.chars ++ memberChars members))

def itemChars : List Value → List Char
  | [] => [']']
  | item :: items => ',' :: (item.chars ++ itemChars items)

def memberChars : List (String × Value) → List Char
  | [] => ['\x7d']
  | (key, value) :: members => ',' :: (quoted key ++ ':' :: (value.chars ++ memberChars members))

end

def Value.text (value : Value) : String :=
  String.ofList value.chars

mutual

/-- A value that needs no escape, no sign and no fraction, has no key twice, and has at most so many
arrays and objects open at a time. -/
def Value.isPlain (room : Nat) : Value → Bool
  | .scalar value => value.isPlain
  | .string text => Json.isPlain text
  | .array items => 0 < room && allPlain (room - 1) items
  | .object members => 0 < room && (members.map Prod.fst).Nodup && membersPlain (room - 1) members

def allPlain (room : Nat) : List Value → Bool
  | [] => true
  | item :: items => item.isPlain room && allPlain room items

def membersPlain (room : Nat) : List (String × Value) → Bool
  | [] => true
  | (key, value) :: members => Json.isPlain key && value.isPlain room && membersPlain room members

end

theorem le_ofDigitChars (digits : List Char) (significand : Nat) :
    significand ≤ Nat.ofDigitChars 10 digits significand := by
  induction digits generalizing significand with
  | nil => exact Nat.le_refl _
  | cons c digits ih =>
    rw [Nat.ofDigitChars_cons]
    have further := ih (10 * significand + (c.toNat - '0'.toNat))
    omega

theorem takeDigits_eq {digits : List Char} (digit : ∀ c ∈ digits, c.isDigit = true)
    (significand taken : Nat)
    (small : Nat.ofDigitChars 10 digits significand < 0x10000000000000000) :
    takeDigits significand taken digits =
      (Nat.ofDigitChars 10 digits significand, taken + digits.length, []) := by
  induction digits generalizing significand taken with
  | nil => rfl
  | cons c digits ih =>
    obtain ⟨first, others⟩ := List.forall_mem_cons.mp digit
    rw [Nat.ofDigitChars_cons] at small ⊢
    have step : significand * 10 + digitValue c = 10 * significand + (c.toNat - '0'.toNat) := by
      rw [Nat.mul_comm, digitValue]
    have bound := le_ofDigitChars digits (10 * significand + (c.toNat - '0'.toNat))
    rw [takeDigits, if_pos ⟨first, by omega⟩, step, ih others _ _ small, List.length_cons]
    congr 2
    omega

/-- Only zero is written with a leading zero. -/
theorem head?_toDigits {n : Nat} (positive : 0 < n) : (Nat.toDigits 10 n).head? ≠ some '0' := by
  induction n using Nat.strongRecOn with
  | _ n ih =>
    by_cases single : n < 10
    · rw [Nat.toDigits_of_lt_base single]
      have digits : ∀ d < 10, 0 < d → [Nat.digitChar d].head? ≠ some '0' := by decide
      exact digits n single positive
    · have leading := ih (n / 10) (by omega) (by omega)
      rw [List.head?_eq_some_head Nat.toDigits_ne_nil] at leading
      rw [Nat.toDigits_of_base_le (by decide) (by omega), List.head?_append,
        List.head?_eq_some_head Nat.toDigits_ne_nil]
      exact leading

theorem readNumber_toDigits {n : Nat} (small : n < 0x10000000000000000) :
    readNumber (Nat.toDigits 10 n) = .ok (.number (.integer n)) := by
  rcases Nat.eq_zero_or_pos n with rfl | positive
  · rfl
  have digit : ∀ c ∈ Nat.toDigits 10 n, c.isDigit = true := fun c mem =>
    Nat.isDigit_of_mem_toDigits (by decide) (by decide) mem
  have value : Nat.ofDigitChars 10 (Nat.toDigits 10 n) 0 = n := Nat.ofDigitChars_ten_toDigits
  have leading := head?_toDigits positive
  have taken := takeDigits_eq digit 0 0 (by rwa [value])
  rw [value] at taken
  generalize Nat.toDigits 10 n = digits at digit leading taken
  cases digits with
  | nil =>
    cases taken
    cases positive
  | cons c digits =>
    have first := digit c List.mem_cons_self
    have zero : c ≠ '0' := fun eq => leading (congrArg some eq)
    have signless : c ≠ '-' := by
      rintro rfl
      cases first
    have unsigned : readNumber (c :: digits) = readUnsigned false (c :: digits) := by
      unfold readNumber
      split
      · rename_i eq
        cases eq
        exact absurd rfl signless
      · rfl
    rw [unsigned, readUnsigned, if_neg zero, taken]
    simp [first, zero, wholeNumber]

/-- A text that may stand behind a value: it is empty or begins with a comma or the end of an array or
object. -/
def Delimits (rest : List Char) : Prop :=
  ∀ c ∈ rest.head?, c = ',' ∨ c = ']' ∨ c = '\x7d'

theorem delimits_cons {c : Char} (mark : c = ',' ∨ c = ']' ∨ c = '\x7d') (rest : List Char) :
    Delimits (c :: rest) := by
  intro d head
  cases head
  exact mark

theorem delimits_itemChars (items : List Value) (rest : List Char) :
    Delimits (itemChars items ++ rest) := by
  cases items with
  | nil => exact delimits_cons (by decide) rest
  | cons item items => exact delimits_cons (by decide) _

theorem delimits_memberChars (members : List (String × Value)) (rest : List Char) :
    Delimits (memberChars members ++ rest) := by
  rcases members with _ | ⟨⟨key, value⟩, members⟩
  · exact delimits_cons (by decide) rest
  · exact delimits_cons (by decide) _

theorem tokens_text {text : List Char} (plain : text.all isPlainChar = true) (seen rest : List Char) :
    tokens (.text seen) (text ++ '"' :: rest) =
      .string (String.ofList (seen.reverse ++ text)) :: tokens .between rest := by
  induction text generalizing seen with
  | nil => simp [tokens]
  | cons c text ih =>
    rw [List.all_cons, Bool.and_eq_true] at plain
    obtain ⟨first, others⟩ := plain
    simp only [isPlainChar, Bool.and_eq_true, decide_eq_true_eq] at first
    obtain ⟨⟨quote, slash⟩, control⟩ := first
    rw [List.cons_append, tokens, if_neg quote, if_neg slash, if_neg (by omega), ih others]
    simp

theorem tokens_quoted {text : String} (plain : isPlain text = true) (rest : List Char) :
    tokens .between (quoted text ++ rest) = .string text :: tokens .between rest := by
  have read := tokens_text plain [] rest
  rw [List.reverse_nil, List.nil_append, String.ofList_toList] at read
  rw [← read, quoted]
  simp [tokens, beginToken]

theorem tokens_word {word : List Char} {value : Scalar} (letters : word.all Char.isAlpha = true)
    (seen : List Char) (known : ∀ atEnd, wordToken atEnd (String.ofList (seen.reverse ++ word)) = .scalar value)
    {rest : List Char} (delimits : Delimits rest) :
    tokens (.word seen) (word ++ rest) = .scalar value :: tokens .between rest := by
  induction word generalizing seen with
  | nil =>
    rw [List.append_nil] at known
    cases rest with
    | nil => simp [tokens, known]
    | cons c rest =>
      rcases delimits c rfl with rfl | rfl | rfl <;> simp [tokens, known, beginToken]
  | cons c word ih =>
    rw [List.all_cons, Bool.and_eq_true] at letters
    obtain ⟨first, others⟩ := letters
    rw [List.cons_append, tokens, if_pos first]
    refine ih others (c :: seen) fun atEnd => ?_
    rw [List.reverse_cons, List.append_assoc]
    exact known atEnd

theorem tokens_number {run : List Char} {value : Scalar} (digits : ∀ c ∈ run, isNumberChar c = true)
    (seen : List Char) (known : readNumber (seen.reverse ++ run) = .ok value) {rest : List Char}
    (delimits : Delimits rest) :
    tokens (.number seen) (run ++ rest) = .scalar value :: tokens .between rest := by
  induction run generalizing seen with
  | nil =>
    rw [List.append_nil] at known
    cases rest with
    | nil => simp [tokens, numberToken, known]
    | cons c rest =>
      rcases delimits c rfl with rfl | rfl | rfl <;>
        simp [tokens, numberToken, known, beginToken, isNumberChar]
  | cons c run ih =>
    obtain ⟨first, others⟩ := List.forall_mem_cons.mp digits
    rw [List.cons_append, tokens, if_pos first]
    refine ih others (c :: seen) ?_
    rw [List.reverse_cons, List.append_assoc]
    exact known

theorem tokens_natural {n : Nat} (small : n < 0x10000000000000000) {rest : List Char}
    (delimits : Delimits rest) :
    tokens .between (n.repr.toList ++ rest) = .scalar (.number (.integer n)) :: tokens .between rest := by
  have read := readNumber_toDigits small
  have digit : ∀ c ∈ Nat.toDigits 10 n, c.isDigit = true := fun c mem =>
    Nat.isDigit_of_mem_toDigits (by decide) (by decide) mem
  rw [Nat.toList_repr]
  cases digits : Nat.toDigits 10 n with
  | nil => cases Nat.toDigits_ne_nil digits
  | cons c run =>
    rw [digits] at read digit
    obtain ⟨first, others⟩ := List.forall_mem_cons.mp digit
    have begins : beginToken c = ([], some (.number [c])) := by
      have other (d : Char) (mark : d.isDigit = false) : c ≠ d := by
        rintro rfl
        exact absurd (first.symm.trans mark) nofun
      simp [beginToken, other, first]
    rw [List.cons_append, tokens, begins]
    refine tokens_number (fun d mem => ?_) [c] read delimits
    simp [isNumberChar, others d mem]

theorem tokens_scalar {value : Scalar} (plain : value.isPlain = true) {rest : List Char}
    (delimits : Delimits rest) :
    tokens .between (value.text.toList ++ rest) = .scalar value :: tokens .between rest := by
  cases value with
  | null => exact tokens_word rfl ['n'] (fun _ => rfl) delimits
  | bool value =>
    cases value with
    | false => exact tokens_word rfl ['f'] (fun _ => rfl) delimits
    | true => exact tokens_word rfl ['t'] (fun _ => rfl) delimits
  | number value =>
    cases value with
    | double bits => cases plain
    | integer value =>
      simp only [Scalar.isPlain, Bool.and_eq_true, decide_eq_true_eq] at plain
      obtain ⟨natural, small⟩ := plain
      obtain ⟨n, rfl⟩ := Int.eq_ofNat_of_zero_le natural
      exact tokens_natural (by omega) delimits

/-- What the reader makes of the tokens behind a value that it has read. -/
def resume (frames : List Frame) (value : Value) (rest : List Token) : Except Fault Value :=
  readTokens (settle value frames).1 (settle value frames).2 rest

/-- A state in which every token but the end of an array begins a value. -/
def AwaitsValue (frames : List Frame) (expect : Expect) : Prop :=
  ∀ token, token ≠ .closeArray → takeToken token frames expect = takeValue frames token

theorem awaitsValue_value (frames : List Frame) : AwaitsValue frames .value := by
  intro token other
  rw [takeToken]

theorem awaitsValue_first (items : List Value) (frames : List Frame) :
    AwaitsValue (.array items :: frames) .first := by
  intro token other
  rw [takeToken, if_neg other]

theorem AwaitsValue.readTokens_cons {frames frames' : List Frame} {expect expect' : Expect}
    (awaits : AwaitsValue frames expect) {token : Token} (other : token ≠ .closeArray)
    (takes : takeValue frames token = .ok (frames', expect')) (rest : List Token) :
    readTokens frames expect (token :: rest) = readTokens frames' expect' rest := by
  rw [readTokens, awaits token other, takes]

theorem AwaitsValue.readTokens_openArray {frames : List Frame} {expect : Expect}
    (awaits : AwaitsValue frames expect) (shallow : frames.length < depthLimit) (rest : List Token) :
    readTokens frames expect (.openArray :: rest) = readTokens (.array [] :: frames) .first rest :=
  awaits.readTokens_cons (by simp) (by rw [takeValue, openFrame, if_pos shallow]) rest

theorem AwaitsValue.readTokens_openObject {frames : List Frame} {expect : Expect}
    (awaits : AwaitsValue frames expect) (shallow : frames.length < depthLimit) (rest : List Token) :
    readTokens frames expect (.openObject :: rest) = readTokens (.object [] "" :: frames) .first rest :=
  awaits.readTokens_cons (by simp) (by rw [takeValue, openFrame, if_pos shallow]) rest

theorem readTokens_key {frames : List Frame} {expect : Expect} (opens : expect = .first ∨ expect = .key)
    (members : Members) (last key : String) (rest : List Token) :
    readTokens (.object members last :: frames) expect (.string key :: .colon :: rest) =
      readTokens (.object members key :: frames) .value rest := by
  rcases opens with rfl | rfl <;> rfl

theorem putMember_of_new {key : String} {members : Members} (new : key ∉ members.map Prod.fst)
    (value : Value) : putMember key value members = members ++ [(key, value)] := by
  have kept : members.filter (·.1 != key) = members := by
    refine List.filter_eq_self.mpr fun m mem => ?_
    rw [bne_iff_ne]
    rintro rfl
    exact new (List.mem_map_of_mem mem)
  rw [putMember, kept]

theorem readTokens_member {frames : List Frame} {expect : Expect}
    (opens : expect = .first ∨ expect = .key) {key : String} (plain : isPlain key = true)
    {done : Members} (new : key ∉ done.map Prod.fst) {value : Value} {text : List Char}
    {rest : List Token}
    (read : readTokens (.object done key :: frames) .value (tokens .between text) =
      resume (.object done key :: frames) value rest) (last : String) :
    readTokens (.object done last :: frames) expect (tokens .between (quoted key ++ ':' :: text)) =
      readTokens (.object (done ++ [(key, value)]) key :: frames) .after rest := by
  have colon : tokens .between (':' :: text) = .colon :: tokens .between text := rfl
  rw [tokens_quoted plain, colon, readTokens_key opens, read, resume, settle, putMember_of_new new]

mutual

/-- The text of a value is read as that value, in whatever stands around it. -/
theorem readTokens_chars (value : Value) : ∀ {room : Nat} {frames : List Frame} {expect : Expect}
    {rest : List Char}, value.isPlain room = true → AwaitsValue frames expect →
    frames.length + room ≤ depthLimit → Delimits rest →
      readTokens frames expect (tokens .between (value.chars ++ rest)) =
        resume frames value (tokens .between rest) := by
  cases value with
  | scalar value =>
    intro room frames expect rest plain awaits within delimits
    rw [Value.isPlain] at plain
    rw [Value.chars, tokens_scalar plain delimits]
    exact awaits.readTokens_cons (by simp) rfl _
  | string text =>
    intro room frames expect rest plain awaits within delimits
    rw [Value.isPlain] at plain
    rw [Value.chars, tokens_quoted plain]
    exact awaits.readTokens_cons (by simp) rfl _
  | array items =>
    intro room frames expect rest plain awaits within delimits
    simp only [Value.isPlain, Bool.and_eq_true, decide_eq_true_eq] at plain
    obtain ⟨enough, plain⟩ := plain
    have inner : frames.length + 1 + (room - 1) ≤ depthLimit := by omega
    have opens := awaits.readTokens_openArray (by omega)
    cases items with
    | nil => exact opens _
    | cons item items =>
      rw [allPlain, Bool.and_eq_true] at plain
      obtain ⟨first, others⟩ := plain
      have read := readTokens_chars item first (awaitsValue_first [] frames) inner
        (delimits_itemChars items rest)
      rw [Value.chars, List.cons_append, List.append_assoc]
      refine (opens _).trans (read.trans ?_)
      exact readTokens_itemChars items others inner [item] rest
  | object members =>
    intro room frames expect rest plain awaits within delimits
    simp only [Value.isPlain, Bool.and_eq_true, decide_eq_true_eq] at plain
    obtain ⟨⟨enough, distinct⟩, plain⟩ := plain
    have inner : frames.length + 1 + (room - 1) ≤ depthLimit := by omega
    have opens := awaits.readTokens_openObject (by omega)
    rcases members with _ | ⟨⟨key, value⟩, members⟩
    · exact opens _
    · rw [membersPlain, Bool.and_eq_true, Bool.and_eq_true] at plain
      obtain ⟨⟨named, first⟩, others⟩ := plain
      have read := readTokens_chars value first (awaitsValue_value (.object [] key :: frames)) inner
        (delimits_memberChars members rest)
      rw [Value.chars, List.cons_append, List.append_assoc, List.cons_append, List.append_assoc]
      refine (opens _).trans ((readTokens_member (.inl rfl) named List.not_mem_nil read _).trans ?_)
      exact readTokens_memberChars members others inner distinct key rest
termination_by sizeOf value

theorem readTokens_itemChars (items : List Value) : ∀ {room : Nat} {frames : List Frame},
    allPlain room items = true → frames.length + 1 + room ≤ depthLimit →
    ∀ (done : List Value) (rest : List Char),
      readTokens (.array done :: frames) .after (tokens .between (itemChars items ++ rest)) =
        resume frames (.array (done ++ items)) (tokens .between rest) := by
  cases items with
  | nil =>
    intro room frames plain within done rest
    rw [List.append_nil]
    rfl
  | cons item items =>
    intro room frames plain within done rest
    rw [allPlain, Bool.and_eq_true] at plain
    obtain ⟨first, others⟩ := plain
    have read := readTokens_chars item first (awaitsValue_value (.array done :: frames)) within
      (delimits_itemChars items rest)
    rw [itemChars, List.cons_append, List.append_assoc]
    refine read.trans ?_
    rw [List.append_cons]
    exact readTokens_itemChars items others within (done ++ [item]) rest
termination_by sizeOf items

theorem readTokens_memberChars (members : List (String × Value)) : ∀ {room : Nat} {frames : List Frame}
    {done : Members}, membersPlain room members = true → frames.length + 1 + room ≤ depthLimit →
    ((done ++ members).map Prod.fst).Nodup → ∀ (last : String) (rest : List Char),
      readTokens (.object done last :: frames) .after (tokens .between (memberChars members ++ rest)) =
        resume frames (.object (done ++ members)) (tokens .between rest) := by
  rcases members with _ | ⟨⟨key, value⟩, members⟩
  · intro room frames done plain within distinct last rest
    rw [List.append_nil]
    rfl
  · intro room frames done plain within distinct last rest
    rw [membersPlain, Bool.and_eq_true, Bool.and_eq_true] at plain
    obtain ⟨⟨named, first⟩, others⟩ := plain
    have new : key ∉ done.map Prod.fst := by
      rw [List.map_append, List.map_cons] at distinct
      exact fun mem => (List.nodup_append.mp distinct).2.2 key mem key List.mem_cons_self rfl
    have read := readTokens_chars value first (awaitsValue_value (.object done key :: frames)) within
      (delimits_memberChars members rest)
    rw [List.append_cons] at distinct ⊢
    rw [memberChars, List.cons_append, List.append_assoc, List.cons_append, List.append_assoc]
    refine (readTokens_member (.inr rfl) named new read last).trans ?_
    exact readTokens_memberChars members others within distinct key rest
termination_by sizeOf members

end

/-- A value that is written without escapes is read back from its text. -/
theorem read_text {value : Value} (plain : value.isPlain depthLimit = true) :
    read value.text = .ok value := by
  have complete := readTokens_chars value plain (awaitsValue_value []) (Nat.le_of_eq (Nat.zero_add _))
    (show Delimits [] from nofun)
  rw [List.append_nil] at complete
  rw [read, Value.text, String.toList_ofList]
  exact complete

end AvroCompiler.Json
