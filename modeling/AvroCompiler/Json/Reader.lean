import AvroCompiler.Json.Token

namespace AvroCompiler.Json

/-- An open container with what it holds so far; an object also holds the key that waits for its
value. -/
inductive Frame where
  | array (items : List Value)
  | object (members : Members) (key : String)

/-- What may follow: a value, a first item or the end of the container just opened, a comma or the
end of the container, a key, a colon, or nothing after the whole value. -/
inductive Expect where
  | value
  | first
  | after
  | key
  | colon
  | nothing (value : Value)

def depthLimit : Nat := 127

/-- A finished value goes into the innermost open container. -/
def settle (value : Value) : List Frame → List Frame × Expect
  | [] => ([], .nothing value)
  | .array items :: frames => (.array (items ++ [value]) :: frames, .after)
  | .object members key :: frames => (.object (putMember key value members) key :: frames, .after)

def openFrame (frame : Frame) (frames : List Frame) : Except Fault (List Frame × Expect) :=
  if frames.length < depthLimit then .ok (frame :: frames, .first) else .error .malformed

def takeValue (frames : List Frame) : Token → Except Fault (List Frame × Expect)
  | .scalar value => .ok (settle (.scalar value) frames)
  | .string value => .ok (settle (.string value) frames)
  | .openArray => openFrame (.array []) frames
  | .openObject => openFrame (.object [] "") frames
  | .broken _ fault => .error fault
  | _ => .error .malformed

def takeKey (members : Members) (frames : List Frame) : Token → Except Fault (List Frame × Expect)
  | .string key => .ok (.object members key :: frames, .colon)
  | .broken true fault => .error fault
  | _ => .error .malformed

def takeToken (token : Token) : List Frame → Expect → Except Fault (List Frame × Expect)
  | frames, .value => takeValue frames token
  | .array items :: frames, .first =>
    if token = .closeArray then .ok (settle (.array items) frames)
    else takeValue (.array items :: frames) token
  | .object members _ :: frames, .first =>
    if token = .closeObject then .ok (settle (.object members) frames)
    else takeKey members frames token
  | .array items :: frames, .after =>
    if token = .closeArray then .ok (settle (.array items) frames)
    else if token = .comma then .ok (.array items :: frames, .value)
    else .error .malformed
  | .object members key :: frames, .after =>
    if token = .closeObject then .ok (settle (.object members) frames)
    else if token = .comma then .ok (.object members key :: frames, .key)
    else .error .malformed
  | .object members _ :: frames, .key => takeKey members frames token
  | frames, .colon => if token = .colon then .ok (frames, .value) else .error .malformed
  | _, _ => .error .malformed

def readTokens : List Frame → Expect → List Token → Except Fault Value
  | _, .nothing value, [] => .ok value
  | _, _, [] => .error .ended
  | frames, expect, token :: rest =>
    match takeToken token frames expect with
    | .ok (frames, expect) => readTokens frames expect rest
    | .error fault => .error fault

def read (text : String) : Except Fault Value :=
  readTokens [] .value (tokens .between text.toList)

end AvroCompiler.Json
