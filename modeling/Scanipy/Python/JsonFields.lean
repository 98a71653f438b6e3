import Scanipy.Python.JsonTokens

/-! The members of a JSON dictionary. -/

namespace Scanipy.Python

open Library

/-- `set(value) == names`. -/
def HasKeys (members : List (Text × Json)) (names : List String) : Prop :=
  (∀ member ∈ members, member.1 ∈ names.map py)
  ∧ ∀ name ∈ names.map py, name ∈ members.map Prod.fst

instance (members : List (Text × Json)) (names : List String) : Decidable (HasKeys members names) :=
  inferInstanceAs (Decidable (_ ∧ _))

namespace Json

/-- `value[name]` for a dictionary that has the name. -/
def get (value : Json) (name : String) : Json :=
  match value with
  | .obj members => (Dict.get? members (py name)).getD .null
  | _ => .null

/-- A dictionary that is written with its names. -/
def record (fields : List (String × Json)) : Json :=
  .obj (fields.map fun field => (py field.1, field.2))

/-- Neither a list nor a dictionary. -/
def IsScalar : Json → Prop
  | .arr _ | .obj _ => False
  | .null | .bool _ | .int _ | .str _ => True

instance (value : Json) : Decidable value.IsScalar :=
  match value with
  | .arr _ | .obj _ => isFalse id
  | .null | .bool _ | .int _ | .str _ => isTrue trivial

/-- The items of a list. -/
def items : Json → List Json
  | .arr items => items
  | _ => []

/-- The value of an integer. -/
def integer : Json → Int
  | .int value => value
  | _ => 0

/-- The characters of a string. -/
def chars : Json → Text
  | .str text => text
  | _ => []

end Json

namespace Json

variable {members : List (Text × Json)} {value : Json} {name : String}

theorem get_of_mem (distinct : (members.map Prod.fst).Nodup) (listed : (py name, value) ∈ members)
    : (Json.obj members).get name = value := by
  have found := Dict.get?_of_mem distinct listed
  rw [get, found, Option.getD_some]

theorem get_mem (distinct : (members.map Prod.fst).Nodup) (present : py name ∈ members.map Prod.fst)
    : (py name, (Json.obj members).get name) ∈ members := by
  obtain ⟨⟨key, value⟩, listed, same⟩ := List.mem_map.mp present
  obtain rfl : key = py name := same
  rw [get_of_mem distinct listed]
  exact listed

variable {names : List String}

/-- A dictionary with exactly the names holds their values, in some order. -/
theorem perm_of_hasKeys (distinct : (members.map Prod.fst).Nodup) (different : (names.map py).Nodup)
    (keys : HasKeys members names)
    : members.Perm (names.map fun name => (py name, (Json.obj members).get name)) := by
  have image : ((names.map fun name => (py name, (Json.obj members).get name)).map Prod.fst)
      = names.map py := by
    rw [List.map_map]
    rfl
  refine (List.perm_ext_iff_of_nodup (List.Nodup.of_map _ distinct) ?_).mpr fun member => ?_
  · exact List.Nodup.of_map Prod.fst (image ▸ different)
  · constructor
    · intro listed
      obtain ⟨name, named, same⟩ := List.mem_map.mp (keys.1 member listed)
      refine List.mem_map.mpr ⟨name, named, ?_⟩
      obtain ⟨key, value⟩ := member
      obtain rfl : py name = key := same
      rw [get_of_mem distinct listed]
    · intro listed
      obtain ⟨name, named, rfl⟩ := List.mem_map.mp listed
      exact get_mem distinct (keys.2 _ (List.mem_map_of_mem named))

/-- Permuted dictionaries have the same sorted form. -/
theorem sortKeys_eq_of_perm {left right : List (Text × Json)}
    (distinct : (left.map Prod.fst).Nodup) (perm : left.Perm right)
    : sortKeys (.obj left) = sortKeys (.obj right) := by
  have keys : ((sortKeysMembers left).map Prod.fst).Nodup := by
    rw [keys_sortKeysMembers]
    exact distinct
  have sorted : (sortKeysMembers left).Perm (sortKeysMembers right) := by
    rw [sortKeysMembers_eq, sortKeysMembers_eq]
    exact perm.map _
  rw [sortKeys, sortKeys, sortedBy_eq_of_perm sorted (List.inj_on_of_nodup_map keys)]

/-- The sorted form of a dictionary with exactly the names. -/
theorem eq_sortKeys_of_hasKeys (canonical : (Json.obj members).Canonical)
    (different : (names.map py).Nodup) (keys : HasKeys members names)
    : Json.obj members
      = sortKeys (.obj (names.map fun name => (py name, (Json.obj members).get name))) := by
  have distinct := (distinct_of_canonical _ canonical).1
  rw [← sortKeys_eq_of_perm distinct (perm_of_hasKeys distinct different keys),
    sortKeys_of_canonical _ canonical]

/-- A field of the sorted form is the sorted form of the field. -/
theorem get_sortKeys (distinct : (members.map Prod.fst).Nodup) (listed : (py name, value) ∈ members)
    : (sortKeys (.obj members)).get name = sortKeys value := by
  have perm := sortedBy_perm Prod.fst (sortKeysMembers members)
  refine get_of_mem ?_ (perm.mem_iff.mpr ?_)
  · rw [(perm.map Prod.fst).nodup_iff, keys_sortKeysMembers]
    exact distinct
  · rw [sortKeysMembers_eq]
    exact List.mem_map.mpr ⟨_, listed, rfl⟩

section Records

variable {fields : List (String × Json)}

theorem keys_record : (fields.map fun field => (py field.1, field.2)).map Prod.fst
    = (fields.map Prod.fst).map py := by
  rw [List.map_map, List.map_map]
  rfl

/-- A field of the sorted record. -/
theorem get_sortKeys_record (different : ((fields.map Prod.fst).map py).Nodup)
    (listed : (name, value) ∈ fields)
    : (sortKeys (record fields)).get name = sortKeys value := by
  refine get_sortKeys ?_ (List.mem_map.mpr ⟨(name, value), listed, rfl⟩)
  rw [keys_record]
  exact different

theorem distinct_record (different : ((fields.map Prod.fst).map py).Nodup)
    (each : ∀ field ∈ fields, field.2.Distinct)
    : (record fields).Distinct := by
  refine ⟨by rw [keys_record]; exact different, distinctMembers_iff.mpr fun member listed => ?_⟩
  obtain ⟨field, found, rfl⟩ := List.mem_map.mp listed
  exact each field found

theorem hasKeys_sortKeys_record (fields : List (String × Json))
    : ∃ members, sortKeys (record fields) = .obj members
        ∧ HasKeys members (fields.map Prod.fst) := by
  have perm := (sortedBy_perm Prod.fst
    (sortKeysMembers (fields.map fun field => (py field.1, field.2)))).map Prod.fst
  rw [keys_sortKeysMembers, keys_record] at perm
  refine ⟨_, rfl, fun member listed => ?_, fun name listed => perm.mem_iff.mpr listed⟩
  exact perm.mem_iff.mp (List.mem_map_of_mem listed)

theorem tokens_record (depth : Nat) (fields : List (String × Json))
    : tokens depth (record fields)
      = (.obj fields.length, depth)
        :: fields.flatMap fun field => (.str (py field.1), depth + 1) :: tokens (depth + 1) field.2 := by
  rw [record, tokens, List.length_map, tokensMembers_eq, List.flatMap_map]
  rfl

/-- What holds of every token of a record. -/
theorem forall_tokens_record {holds : Token × Nat → Prop} {depth : Nat}
    : (∀ entry ∈ tokens depth (record fields), holds entry)
      ↔ holds (.obj fields.length, depth)
        ∧ ∀ field ∈ fields, holds (.str (py field.1), depth + 1)
            ∧ ∀ entry ∈ tokens (depth + 1) field.2, holds entry := by
  simp only [tokens_record, List.forall_mem_cons, List.forall_mem_flatMap]

end Records

mutual

/-- Every key at every depth satisfies the predicate. -/
def KeysSatisfy (holds : Text → Prop) : Json → Prop
  | .null | .bool _ | .int _ | .str _ => True
  | .arr items => ItemKeysSatisfy holds items
  | .obj members => MemberKeysSatisfy holds members

def ItemKeysSatisfy (holds : Text → Prop) : List Json → Prop
  | [] => True
  | item :: rest => KeysSatisfy holds item ∧ ItemKeysSatisfy holds rest

def MemberKeysSatisfy (holds : Text → Prop) : List (Text × Json) → Prop
  | [] => True
  | (key, value) :: rest => (holds key ∧ KeysSatisfy holds value) ∧ MemberKeysSatisfy holds rest

end

section Keys

variable {holds : Text → Prop}

theorem IsScalar.keysSatisfy (scalar : value.IsScalar) : value.KeysSatisfy holds := by
  cases value <;> trivial

theorem keysSatisfy_arr {items : List Json}
    : KeysSatisfy holds (.arr items) ↔ ∀ item ∈ items, KeysSatisfy holds item := by
  rw [KeysSatisfy]
  induction items with
  | nil => simp [ItemKeysSatisfy]
  | cons item rest ih => rw [ItemKeysSatisfy, ih, List.forall_mem_cons]

theorem keysSatisfy_obj
    : KeysSatisfy holds (.obj members)
      ↔ ∀ member ∈ members, holds member.1 ∧ KeysSatisfy holds member.2 := by
  rw [KeysSatisfy]
  induction members with
  | nil => simp [MemberKeysSatisfy]
  | cons member rest ih =>
      obtain ⟨key, value⟩ := member
      rw [MemberKeysSatisfy, ih, List.forall_mem_cons]

/-- A dictionary with known keys. -/
theorem keysSatisfy_of_hasKeys (distinct : value.Distinct)
    (dictionary : ∃ members, value = .obj members ∧ HasKeys members names)
    (known : ∀ name ∈ names, holds (py name))
    (each : ∀ name ∈ names, KeysSatisfy holds (value.get name))
    : KeysSatisfy holds value := by
  obtain ⟨members, rfl, keys⟩ := dictionary
  rw [keysSatisfy_obj]
  intro member listed
  obtain ⟨name, named, same⟩ := List.mem_map.mp (keys.1 member listed)
  obtain ⟨key, value⟩ := member
  obtain rfl : py name = key := same
  refine ⟨known name named, ?_⟩
  rw [← get_of_mem distinct.1 listed]
  exact each name named

end Keys

/-- What holds of `null` and of every member holds of what is read. -/
theorem get_of_members {P : Json → Prop} (absent : P .null)
    (each : ∀ members, value = .obj members → ∀ member ∈ members, P member.2) (name : String)
    : P (value.get name) := by
  cases value with
  | obj members =>
      change P ((Dict.get? members (py name)).getD .null)
      cases found : Dict.get? members (py name) with
      | none => exact absent
      | some child => exact each members rfl _ (Dict.mem_of_get? found)
  | null | bool _ | int _ | str _ | arr _ => exact absent

/-- A member of a dictionary has distinct keys. -/
theorem distinct_get (distinct : value.Distinct) (name : String) : (value.get name).Distinct := by
  refine get_of_members trivial (fun members same => ?_) name
  subst same
  exact distinctMembers_iff.mp distinct.2

theorem canonical_get (canonical : value.Canonical) (name : String)
    : (value.get name).Canonical := by
  refine get_of_members trivial (fun members same => ?_) name
  subst same
  exact canonicalMembers_iff.mp canonical.2

end Json

end Scanipy.Python
