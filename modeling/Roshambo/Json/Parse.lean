import Roshambo.Json.Token

/-!
# Values of JSON text

The tokens of a text build one value. Containers that are still open wait on a stack, so that the
reader takes one token at a time however deep they nest.
-/
namespace Roshambo.Json

/-- An open container with what it holds so far, latest first. An object may wait for the value of
a key; a key may be malformed. -/
inductive Frame where
  | arr (items : List Value)
  | obj (members : List (Option String × Value))
  | member (members : List (Option String × Value)) (key : Option String)

/-- What may come next. -/
inductive Expect where
  /-- A value, or the end of an array that has just been opened. -/
  | item (mayClose : Bool)
  /-- A key, or the end of an object that has just been opened. -/
  | key (mayClose : Bool)
  | colon
  /-- A comma or the end of the container. -/
  | next
  /-- Nothing: the value is complete. -/
  | nothing (value : Value)

structure Reading where
  stack : List Frame
  expect : Expect

/-- An object whose keys are all text; any malformed key makes it malformed. -/
def objectOf (members : List (Option String × Value)) : Value :=
  match members.mapM fun (key, value) => key.map fun k => (k, value) with
  | some members => .obj members
  | none => .malformed

namespace Reading

/-- A value is complete and goes into the innermost open container. -/
def complete (stack : List Frame) (value : Value) : Option Reading :=
  match stack with
  | [] => some ⟨[], .nothing value⟩
  | .arr items :: stack => some ⟨.arr (value :: items) :: stack, .next⟩
  | .member members key :: stack => some ⟨.obj ((key, value) :: members) :: stack, .next⟩
  | .obj _ :: _ => none

/-- The innermost container ends. -/
def close (stack : List Frame) (token : Token) : Option Reading :=
  match stack, token with
  | .arr items :: stack, .closeArr => complete stack (.arr items.reverse)
  | .obj members :: stack, .closeObj => complete stack (objectOf members.reverse)
  | _, _ => none

def step (r : Reading) (token : Token) : Option Reading :=
  match r.expect, token with
  | .item _, .openArr => some ⟨.arr [] :: r.stack, .item true⟩
  | .item _, .openObj => some ⟨.obj [] :: r.stack, .key true⟩
  | .item _, .scalar value => complete r.stack value
  | .item _, .text (some s) => complete r.stack (.str s)
  | .item _, .text none => complete r.stack .malformed
  | .item true, token => close r.stack token
  | .key _, .text key =>
    match r.stack with
    | .obj members :: stack => some ⟨.member members key :: stack, .colon⟩
    | _ => none
  | .key true, token => close r.stack token
  | .colon, .colon => some ⟨r.stack, .item false⟩
  | .next, .comma =>
    match r.stack with
    | .arr _ :: _ => some ⟨r.stack, .item false⟩
    | .obj _ :: _ => some ⟨r.stack, .key false⟩
    | _ => none
  | .next, token => close r.stack token
  | _, _ => none

def run (r : Reading) : List Token → Option Value
  | [] =>
    match r.expect with
    | .nothing value => some value
    | _ => none
  | token :: tokens =>
    match r.step token with
    | some r => r.run tokens
    | none => none

end Reading

/-- The value that a text holds, with nothing but blanks around it. -/
def parse? (s : String) : Option Value :=
  (tokensOf? s).bind (Reading.run ⟨[], .item false⟩ ·)

end Roshambo.Json
