import Roshambo.Json.Codec

/-!
# Records and variants

A record is written as an object and read from one, or from an array of its fields in the order of
their declaration. Keys that no field asks for are skipped, a key given twice is refused, and an
array may not hold more than the fields. A variant of a sum is written as its name, or as an object
with its name as the only key.
-/
namespace Roshambo.Json

/-- Where the fields of a record come from: members by their keys, or items in turn. -/
inductive Source where
  | byKey (members : List (String × Value))
  | inOrder (items : List Value)

namespace Source

def ofValue? : Value → Option Source
  | .obj members => some (.byKey members)
  | .arr items => some (.inOrder items)
  | _ => none

/-- The value of the only member with one of these keys; nothing inside if there is no such
member, and failure if there are several. -/
def find? (members : List (String × Value)) (keys : List String) : Option (Option Value) :=
  match members.filter (keys.contains ·.1) with
  | [] => some none
  | [(_, value)] => some (some value)
  | _ => none

variable {α : Type} [Codec α]

/-- A field that must be given. -/
def required (s : Source) (key : String) : Option (α × Source) :=
  match s with
  | .byKey members =>
    match find? members [key] with
    | some (some value) => (decode? value).map (·, s)
    | _ => none
  | .inOrder [] => none
  | .inOrder (value :: rest) => (decode? value).map (·, .inOrder rest)

/-- A field that is the default when it is not given. The keys are its name and other names it goes
by. -/
def defaulted (s : Source) (keys : List String) (default : α) : Option (α × Source) :=
  match s with
  | .byKey members =>
    match find? members keys with
    | some (some value) => (decode? value).map (·, s)
    | some none => some (default, s)
    | none => none
  | .inOrder [] => some (default, .inOrder [])
  | .inOrder (value :: rest) => (decode? value).map (·, .inOrder rest)

/-- A field that an object may leave out and an array may not. -/
def optional (s : Source) (key : String) : Option (Option α × Source) :=
  match s with
  | .byKey _ => s.defaulted [key] none
  | .inOrder _ => s.required key

/-- All fields are read; no item is left over. -/
def finish : Source → Option Unit
  | .inOrder (_ :: _) => none
  | _ => some ()

/-! ## Reading what was written

A record is read in steps, a field in each. A written object has every field under its name, so a
step gives the value that was written, and the rest is read from the same members. -/

section

variable {β : Type} {members : List (String × Value)} {b : β}

theorem read_obj {f : Source → Option β} (next : f (.byKey members) = some b) :
    ofValue? (.obj members) >>= f = some b := next

variable [Lawful α]

theorem read_required {key : String} {a : α} {f : α × Source → Option β}
    (found : find? members [key] = some (some (encode a)))
    (next : f (a, .byKey members) = some b) :
    required (.byKey members) key >>= f = some b := by
  simp [required, found, next]

theorem read_defaulted {keys : List String} {a default : α} {f : α × Source → Option β}
    (found : find? members keys = some (some (encode a)))
    (next : f (a, .byKey members) = some b) :
    defaulted (.byKey members) keys default >>= f = some b := by
  simp [defaulted, found, next]

theorem read_optional [NeverNull α] {key : String} {a : Option α}
    {f : Option α × Source → Option β} (found : find? members [key] = some (some (encode a)))
    (next : f (a, .byKey members) = some b) :
    optional (.byKey members) key >>= f = some b :=
  read_defaulted found next

end

end Source

/-- A variant by its name, alone or with a value. -/
inductive Variant where
  | bare (name : String)
  | tagged (name : String) (value : Value)

namespace Variant

def ofValue? : Value → Option Variant
  | .str name => some (.bare name)
  | .obj [(name, value)] => some (.tagged name value)
  | _ => none

/-- The name of a variant that carries no value; null may stand in its place. -/
def unitName? : Variant → Option String
  | .bare name => some name
  | .tagged name .null => some name
  | .tagged _ _ => none

/-- The written form of a variant that carries a value. -/
def tag (name : String) (value : Value) : Value := .obj [(name, value)]

@[simp] theorem ofValue?_tag (name : String) (value : Value) :
    ofValue? (tag name value) = some (.tagged name value) := rfl

theorem read_tag {β : Type} (name : String) (value : Value) (f : Variant → Option β) :
    ofValue? (tag name value) >>= f = f (.tagged name value) := rfl

end Variant

/-- Reads one of finitely many values by its name. -/
def decodeName? {α : Type} (all : List α) (name : α → String) (v : Value) : Option α := do
  let wanted ← (← Variant.ofValue? v).unitName?
  all.find? (name · == wanted)

end Roshambo.Json
