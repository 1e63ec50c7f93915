/-
PraxisGrid/Lib/Serde.lean

JSON values and the readers that serde derives for structs and for enums of units.

A value is a `serde_json::Value`; no function here depends on the order of an object's members.  A
typed reader is modelled by what the type serialises back to: the fields it knows, without those
that are absent or null.  A struct may be given by an array of all its fields.

* `given_present`: the fields of a struct are found again in what it serialises to.
* `Fixed`: what one reader gives back unchanged, another does too; `fixed_struct` for structs, of
  which the other may deny unknown fields.
-/
import Mathlib.Data.List.Forall2
import Mathlib.Data.Rat.Init

namespace Serde

/-! ### Values -/

/-- A JSON value; a number without fraction or exponent, in the range of the machine's words, is an
`int`, and every other one the double nearest to it. -/
inductive Value
  | null
  | bool (value : Bool)
  | int (value : Int)
  | float (value : Rat)
  | string (value : String)
  | array (items : List Value)
  | object (members : List (String × Value))

mutual

/-- A value written and read back, where `float` is what the text of a double is read as. -/
def Value.reread (float : Rat → Rat) : Value → Value
  | .float value => .float (float value)
  | .array items => .array (rereadItems float items)
  | .object members => .object (rereadMembers float members)
  | value => value

def rereadItems (float : Rat → Rat) : List Value → List Value
  | [] => []
  | value :: items => value.reread float :: rereadItems float items

def rereadMembers (float : Rat → Rat) : List (String × Value) → List (String × Value)
  | [] => []
  | (name, value) :: members => (name, value.reread float) :: rereadMembers float members

end

namespace Value

def isNull : Value → Bool
  | null => true
  | _ => false

/-- A member of an object; an array has none. -/
def get (key : String) : Value → Option Value
  | object members => members.lookup key
  | _ => none

def text : List String → Value → Option String
  | [], string value => some value
  | [], _ => none
  | key :: path, value => (value.get key).bind (text path)

def texts (members : List (String × String)) : Value :=
  object (members.map fun (name, value) => (name, string value))

end Value

/-! ### Typed readers -/

abbrev Reader := Value → Option Value

def string : Reader
  | .string value => some (.string value)
  | _ => none

def bool : Reader
  | .bool value => some (.bool value)
  | _ => none

/-- The double nearest to an integer, of two the even one. -/
def nearestDouble (value : Int) : Rat :=
  let unit := 1 <<< (value.natAbs.log2 - 52)
  let below := value.natAbs / unit
  let rest := value.natAbs % unit
  let nearest := if 2 * rest < unit ∨ 2 * rest = unit ∧ below % 2 = 0 then below else below + 1
  (value.sign * (nearest * unit : Nat) : Int)

/-- An `f64`, which takes integers too. -/
def number : Reader
  | .float value => some (.float value)
  | .int value => some (.float (nearestDouble value))
  | _ => none

/-- A machine integer, which takes no number with a fraction, not even `1.0`. -/
def integer (least greatest : Int) : Reader
  | .int value => if least ≤ value ∧ value ≤ greatest then some (.int value) else none
  | _ => none

def u32 : Reader := integer 0 4294967295

def i64 : Reader := integer (-9223372036854775808) 9223372036854775807

/-- A unit variant, by its name or as the one member of an object whose value is null. -/
def oneOf (names : List String) : Reader
  | .string name | .object [(name, .null)] => if name ∈ names then some (.string name) else none
  | _ => none

def array (item : Reader) : Reader
  | .array items => (items.mapM item).map .array
  | _ => none

/-- The values given for the fields of a struct, of which a closed one denies unknown ones.  An
array gives the fields in their order. -/
def given (closed : Bool) (names : List String) : Value → Option (List (Option Value))
  | .object members =>
    if closed = true → ∀ name ∈ members.map Prod.fst, name ∈ names then
      some (names.map fun name => members.lookup name)
    else none
  | .array items => some (items.map some)
  | _ => none

structure Field where
  name : String
  reader : Reader
  optional : Bool := false

/-- An optional field may be absent or null. -/
def Field.read (field : Field) (value : Option Value) : Option (Option Value) :=
  if field.optional ∧ value.all Value.isNull then some none
  else (value.bind field.reader).map some

/-- Every field is read, and nothing else is given. -/
def readFields : List Field → List (Option Value) → Option (List (Option Value))
  | [], [] => some []
  | field :: fields, value :: values => do
    some ((← field.read value) :: (← readFields fields values))
  | _, _ => none

/-- The members that are serialised: those that are there, in the order of the declaration. -/
def present : List String → List (Option Value) → List (String × Value)
  | name :: names, value :: values =>
    (value.map fun value => (name, value)).toList ++ present names values
  | _, _ => []

def fieldNames (fields : List Field) : List String := fields.map Field.name

def struct (closed : Bool) (fields : List Field) : Reader := fun value => do
  let values ← readFields fields (← given closed (fieldNames fields) value)
  some (.object (present (fieldNames fields) values))

def requiredFields (reader : Reader) (names : List String) : List Field :=
  names.map fun name => ⟨name, reader, false⟩

def optionalFields (reader : Reader) (names : List String) : List Field :=
  names.map fun name => ⟨name, reader, true⟩

/-! ### What a struct serialises to -/

-- by a condition, which is decided without running the comparison
theorem lookup_cons_ite {α : Type} (name key : String) (value : α) (members : List (String × α)) :
    ((key, value) :: members).lookup name
      = if name = key then some value else members.lookup name := by
  by_cases h : name = key
  · simp [h]
  · simp [List.lookup_cons, beq_false_of_ne h, h]

theorem map_fst_present (names : List String) (values : List (Option Value)) :
    ((present names values).map Prod.fst).Sublist names := by
  induction names generalizing values with
  | nil => exact .refl _
  | cons name names ih =>
    cases values with
    | nil => exact List.nil_sublist _
    | cons value values =>
      cases value with
      | none => exact (ih values).cons _
      | some value => exact (ih values).cons_cons _

theorem map_lookup_present {names : List String} (hn : names.Nodup) {values : List (Option Value)}
    (hl : values.length = names.length) :
    names.map (fun name => (present names values).lookup name) = values := by
  induction names generalizing values with
  | nil => exact (List.length_eq_zero_iff.mp hl).symm
  | cons name names ih =>
    cases values with
    | nil => cases hl
    | cons value values =>
      obtain ⟨hnot, hn⟩ := List.nodup_cons.mp hn
      have habsent : (present names values).lookup name = none := by
        rw [List.lookup_eq_none_iff]
        intro member hm
        have := (map_fst_present names values).subset (List.mem_map_of_mem hm)
        simpa using fun h : name = member.1 => hnot (h ▸ this)
      have hother : ∀ other ∈ names,
          (present (name :: names) (value :: values)).lookup other
            = (present names values).lookup other := by
        intro other ho
        have hne : other ≠ name := fun h => hnot (h ▸ ho)
        cases value with
        | none => rfl
        | some value => exact (lookup_cons_ite _ _ _ _).trans (if_neg hne)
      rw [List.map_cons, List.map_congr_left hother, ih hn (Nat.succ.inj hl)]
      refine congrArg (· :: values) ?_
      cases value with
      | none => exact habsent
      | some value => exact (lookup_cons_ite _ _ _ _).trans (if_pos rfl)

/-- The values of a struct's fields are found again. -/
theorem given_present {names : List String} (hn : names.Nodup) {values : List (Option Value)}
    (hl : values.length = names.length) (closed : Bool) :
    given closed names (.object (present names values)) = some values := by
  rw [given, if_pos fun _ _ h => (map_fst_present names values).subset h, map_lookup_present hn hl]

theorem readFields_cons {field : Field} {fields : List Field} {value out : Option Value}
    {values outs : List (Option Value)} (h : field.read value = some out)
    (hs : readFields fields values = some outs) :
    readFields (field :: fields) (value :: values) = some (out :: outs) := by
  rw [readFields, h, hs]
  rfl

theorem length_of_readFields {fields : List Field} {values outs : List (Option Value)}
    (h : readFields fields values = some outs) : outs.length = fields.length := by
  induction fields generalizing values outs with
  | nil =>
    cases values with
    | nil => cases h; rfl
    | cons value values => cases h
  | cons field fields ih =>
    cases values with
    | nil => cases h
    | cons value values =>
      obtain ⟨out, -, h⟩ := Option.bind_eq_some_iff.mp h
      obtain ⟨rest, hr, h⟩ := Option.bind_eq_some_iff.mp h
      cases h
      exact congrArg Nat.succ (ih hr)

/-- A struct whose fields are read back as they were written is itself. -/
theorem struct_present {fields : List Field} (hn : (fieldNames fields).Nodup)
    {values : List (Option Value)} (h : readFields fields values = some values) (closed : Bool) :
    struct closed fields (.object (present (fieldNames fields) values))
      = some (.object (present (fieldNames fields) values)) := by
  have hl : values.length = (fieldNames fields).length :=
    (length_of_readFields h).trans (List.length_map _).symm
  simp only [struct, given_present hn hl, Option.bind_eq_bind, Option.bind_some, h]

/-- What the first reader gives back unchanged, the second does too. -/
def Fixed (reader reader' : Reader) : Prop := ∀ value, reader value = some value →
  reader' value = some value

theorem mapM_fixed {reader reader' : Reader} (hr : Fixed reader reader') {items : List Value}
    (h : items.mapM reader = some items) : items.mapM reader' = some items := by
  induction items with
  | nil => exact h
  | cons item items ih =>
    rw [List.mapM_cons] at h ⊢
    obtain ⟨out, ho, h⟩ := Option.bind_eq_some_iff.mp h
    obtain ⟨outs, hs, h⟩ := Option.bind_eq_some_iff.mp h
    cases h
    rw [hr item ho, ih hs]
    rfl

/-- Two fields of one name, the second of which takes what the first one writes. -/
def Field.Like (field field' : Field) : Prop :=
  field'.name = field.name ∧ field'.optional = field.optional ∧ Fixed field.reader field'.reader

theorem Field.Like.refl (field : Field) : field.Like field := ⟨rfl, rfl, fun _ h => h⟩

theorem Field.Like.read {field field' : Field} (hf : field.Like field') {value : Option Value}
    (h : field.read value = some value) : field'.read value = some value := by
  rw [Field.read, hf.2.1]
  rw [Field.read] at h
  split_ifs at h ⊢
  · exact h
  · cases value with
    | none => cases h
    | some value =>
      obtain ⟨out, hout, heq⟩ := Option.map_eq_some_iff.mp h
      cases heq
      simp [hf.2.2 value hout]

section Like

variable {fields fields' : List Field} (hf : List.Forall₂ Field.Like fields fields')
include hf

theorem readFields_like {values : List (Option Value)}
    (h : readFields fields values = some values) : readFields fields' values = some values := by
  induction hf generalizing values with
  | nil => exact h
  | cons hfield _ ih =>
    cases values with
    | nil => cases h
    | cons value values =>
      obtain ⟨out, ho, h⟩ := Option.bind_eq_some_iff.mp h
      obtain ⟨rest, hr, h⟩ := Option.bind_eq_some_iff.mp h
      cases h
      exact readFields_cons (hfield.read ho) (ih hr)

theorem fieldNames_like : fieldNames fields' = fieldNames fields := by
  induction hf with
  | nil => rfl
  | cons hfield _ ih => exact congrArg₂ List.cons hfield.1 ih

/-- What a struct writes, one of like fields takes, whether or not it denies unknown ones. -/
theorem fixed_struct (hn : (fieldNames fields).Nodup) (closed closed' : Bool) :
    Fixed (struct closed fields) (struct closed' fields') := by
  intro value h
  obtain ⟨values, hg, h⟩ := Option.bind_eq_some_iff.mp h
  obtain ⟨outs, hr, h⟩ := Option.bind_eq_some_iff.mp h
  cases h
  have hl : outs.length = (fieldNames fields).length :=
    (length_of_readFields hr).trans (List.length_map _).symm
  have hnames : fieldNames fields' = fieldNames fields := fieldNames_like hf
  -- what was written gives the same fields back
  have hsame : outs = values := Option.some.inj ((given_present hn hl closed).symm.trans hg)
  subst hsame
  rw [← hnames]
  exact struct_present (hnames ▸ hn) (readFields_like hf hr) closed'

end Like

end Serde
