import Scanipy.Tools.Worker.Journal.Values

/-! What the budgeted walk of a frozen document accepts: exactly the frozen forms of clean values
with sorted keys, and the budget it spends is the number of bytes and values written.
-/

namespace Scanipy.Tools.Worker.Journal

open Library Python

-- Sizes

/-- The bytes that a value is written in. -/
def size (value : Json) : Nat :=
  value.dumps.utf8.length

theorem length_utf8_quote (text : Text) : (Json.quote text).utf8.length = sizeText text :=
  Json.length_utf8_quote text

theorem size_arr (items : List Json)
    : size (.arr items) = 2 + (items.length - 1) + (items.map size).sum := by
  have each : items.map (fun item => item.dumps.utf8.length) = items.map size := rfl
  simp only [size, Json.dumps_arr, Text.utf8_append, List.length_append,
    Json.length_utf8_commaSeparated, List.map_map, List.length_map, Function.comp_def, each,
    show (py "[").utf8.length = 1 by decide, show (py "]").utf8.length = 1 by decide]
  omega

/-- The bytes of a member with its colon. -/
def sizeMember (member : Text × Json) : Nat :=
  sizeText member.1 + 1 + size member.2

variable {members : List (Text × Json)}

theorem size_obj (ordered : (members.map Prod.fst).Pairwise (· < ·))
    : size (.obj members) = 2 + (members.length - 1) + (members.map sizeMember).sum := by
  have each : members.map (fun member => (Json.dumpsMember member).utf8.length)
      = members.map sizeMember := by
    apply List.map_congr_left
    intro member _
    simp only [Json.dumpsMember, Text.utf8_append, List.length_append, length_utf8_quote,
      show (py ":").utf8.length = 1 by decide, sizeMember, size]
  simp only [size, Json.dumps_obj ordered, Text.utf8_append, List.length_append,
    Json.length_utf8_commaSeparated, List.map_map, List.length_map, Function.comp_def, each,
    show (py "\x7b").utf8.length = 1 by decide, show (py "\x7d").utf8.length = 1 by decide]
  omega

/-- The text encodes and holds no NUL. -/
def Clean (text : Text) : Prop :=
  text.Encodable ∧ ∀ point ∈ text, point.val ≠ 0

mutual

/-- Integers of 64 bits, clean texts, sorted keys, and no nesting beyond the limit. -/
@[simp]
def Plain (limit depth : Nat) : Json → Prop
  | .null | .bool _ => True
  | .int value => minInt ≤ value ∧ value ≤ maxInt
  | .str value => Clean value
  | .arr items => depth < limit ∧ PlainItems limit (depth + 1) items
  | .obj members =>
      depth < limit ∧ (members.map Prod.fst).Pairwise (· < ·)
      ∧ PlainMembers limit (depth + 1) members

@[simp]
def PlainItems (limit depth : Nat) : List Json → Prop
  | [] => True
  | item :: rest => Plain limit depth item ∧ PlainItems limit depth rest

@[simp]
def PlainMembers (limit depth : Nat) : List (Text × Json) → Prop
  | [] => True
  | (key, value) :: rest => Clean key ∧ Plain limit depth value ∧ PlainMembers limit depth rest

end

mutual

/-- The keys, scalars and containers of a value. -/
def values : Json → Nat
  | .null | .bool _ | .int _ | .str _ => 1
  | .arr items => 1 + valuesItems items
  | .obj members => 1 + valuesMembers members

def valuesItems : List Json → Nat
  | [] => 0
  | item :: rest => values item + valuesItems rest

def valuesMembers : List (Text × Json) → Nat
  | [] => 0
  | (_, value) :: rest => 1 + values value + valuesMembers rest

end

theorem length_le_valuesItems (items : List Json) : items.length ≤ valuesItems items := by
  induction items with
  | nil => exact Nat.zero_le _
  | cons item rest ih =>
      have positive : 1 ≤ values item := by cases item <;> simp [values]
      simp only [List.length_cons, valuesItems]
      omega

theorem length_le_valuesMembers (members : List (Text × Json))
    : 2 * members.length ≤ valuesMembers members := by
  induction members with
  | nil => exact Nat.zero_le _
  | cons member rest ih =>
      obtain ⟨key, value⟩ := member
      have positive : 1 ≤ values value := by cases value <;> simp [values]
      simp only [List.length_cons, valuesMembers]
      omega

mutual

theorem Plain.canonical {limit : Nat}
    : (value : Json) → {depth : Nat} → Plain limit depth value → value.Canonical
  | .null, _, _ | .bool _, _, _ | .int _, _, _ | .str _, _, _ => trivial
  | .arr items, _, ⟨_, clean⟩ => Plain.canonicalItems items clean
  | .obj members, _, ⟨_, ordered, clean⟩ => ⟨ordered, Plain.canonicalMembers members clean⟩

theorem Plain.canonicalItems {limit : Nat}
    : (items : List Json) → {depth : Nat} → PlainItems limit depth items
      → Json.CanonicalItems items
  | [], _, _ => trivial
  | item :: rest, _, ⟨head, tail⟩ => ⟨Plain.canonical item head, Plain.canonicalItems rest tail⟩

theorem Plain.canonicalMembers {limit : Nat}
    : (members : List (Text × Json)) → {depth : Nat} → PlainMembers limit depth members
      → Json.CanonicalMembers members
  | [], _, _ => trivial
  | (_, value) :: rest, _, ⟨_, head, tail⟩ =>
      ⟨Plain.canonical value head, Plain.canonicalMembers rest tail⟩

end

mutual

theorem Plain.encodable {limit : Nat}
    : (value : Json) → {depth : Nat} → Plain limit depth value → value.Encodable
  | .null, _, _ | .bool _, _, _ | .int _, _, _ => trivial
  | .str _, _, clean => clean.1
  | .arr items, _, ⟨_, clean⟩ => Plain.encodableItems items clean
  | .obj members, _, ⟨_, _, clean⟩ => Plain.encodableMembers members clean

theorem Plain.encodableItems {limit : Nat}
    : (items : List Json) → {depth : Nat} → PlainItems limit depth items
      → Json.EncodableItems items
  | [], _, _ => trivial
  | item :: rest, _, ⟨head, tail⟩ => ⟨Plain.encodable item head, Plain.encodableItems rest tail⟩

theorem Plain.encodableMembers {limit : Nat}
    : (members : List (Text × Json)) → {depth : Nat} → PlainMembers limit depth members
      → Json.EncodableMembers members
  | [], _, _ => trivial
  | (_, value) :: rest, _, ⟨key, head, tail⟩ =>
      ⟨key.1, Plain.encodable value head, Plain.encodableMembers rest tail⟩

end

-- The walk

variable {budget left : Budget} {bytes : Nat}

theorem Budget.take_ok {values : Nat}
    : budget.take bytes values = .ok left
      ↔ budget.bytes = left.bytes + bytes ∧ budget.values = left.values + values := by
  simp only [Budget.take, check_ok, need_ok_iff, Except.ok.injEq]
  constructor
  · rintro ⟨enough, rfl⟩
    simp only
    omega
  · rintro ⟨spent, counted⟩
    refine ⟨by omega, ?_⟩
    cases left
    simp only [Budget.mk.injEq]
    simp only at spent counted
    omega

theorem checkText_ok {text : Text} {cap : Nat}
    : checkText text cap true = .ok () ↔ Clean text ∧ text.utf8.length ≤ cap := by
  have short := text.length_le_utf8
  simp only [checkText, check_ok, need_ok_iff, Clean, true_or, true_and,
    List.all_eq_true, decide_eq_true_eq]
  constructor
  · rintro ⟨_, nonzero, encodable, fits⟩
    exact ⟨⟨encodable, nonzero⟩, fits⟩
  · rintro ⟨⟨encodable, nonzero⟩, fits⟩
    exact ⟨by omega, nonzero, encodable, fits⟩

theorem freezeItems_eq (items : List Json) : freezeItems items = items.map freeze := by
  induction items with
  | nil => rfl
  | cons item rest ih => simp [freezeItems, ih]

theorem freezeMembers_eq (members : List (Text × Json))
    : freezeMembers members = members.map fun member => (member.1, freeze member.2) := by
  induction members with
  | nil => rfl
  | cons member rest ih =>
      obtain ⟨key, value⟩ := member
      simp [freezeMembers, ih]

/-- The frozen form of a member. -/
def freezeMember (member : Text × Json) : Stored :=
  .tuple [.str member.1, freeze member.2]

/-- Members in order are frozen as they are. -/
theorem freeze_obj (ordered : (members.map Prod.fst).Pairwise (· < ·))
    : freeze (.obj members) = .tuple [.str (py "object"), .tuple (members.map freezeMember)] := by
  have keys : ((freezeMembers members).map Prod.fst).Pairwise (· < ·) := by
    simpa [freezeMembers_eq, Function.comp_def] using ordered
  rw [freeze, sortedBy_eq_self keys, freezeMembers_eq, List.map_map]
  rfl

theorem freeze_arr (items : List Json)
    : freeze (.arr items) = .tuple [.str (py "array"), .tuple (items.map freeze)] := by
  rw [freeze, freezeItems_eq]

section Walk

variable {limit : Nat}

/-- The walk returned the value that was frozen, and spent its bytes and values. -/
structure Thawed (depth : Nat) (stored : Stored) (value : Json) (budget left : Budget) : Prop where
  frozen : freeze value = stored
  clean : Plain limit depth value
  bytes : budget.bytes = left.bytes + size value
  values : budget.values = left.values + values value

variable {depth : Nat} {items : List Stored}

theorem plain_malformed (shape : ∀ tag members, items ≠ [.str tag, .tuple members])
    : plain limit depth (.tuple items) budget = malformed limit depth items budget := by
  rw [plain]
  exact shape

theorem malformed_ne_ok {result : Json × Budget}
    : malformed limit depth items budget ≠ .ok result := by
  intro ran
  simp only [malformed, bind_ok, need_ok_iff] at ran
  obtain ⟨_, _, _, _, ran⟩ := ran
  split at ran
  · simp [bind_ok] at ran
  · cases ran

variable {entry : Stored}

theorem plainMembers_malformed {previous : Option Text} {rest : List Stored}
    (shape : ∀ key content, entry ≠ .tuple [.str key, content])
    : plainMembers limit depth previous (entry :: rest) budget = malformedMember entry := by
  rw [plainMembers]
  exact shape

theorem malformedMember_ne_ok {result : List (Text × Json) × Budget}
    : malformedMember entry ≠ .ok result := by
  intro ran
  cases entry with
  | tuple items => simp [malformedMember, bind_ok] at ran
  | none | bool _ | int _ | str _ => cases ran

mutual

/-- What the walk accepts is the frozen form of what it returns. By recursion on the frozen
value.
-/
theorem plain_sound
    : (stored : Stored) → {depth : Nat} → {budget left : Budget} → {value : Json}
      → plain limit depth stored budget = .ok (value, left)
      → @Thawed limit depth stored value budget left
  | .none, depth, budget, left, value, ran => by
      rw [plain] at ran
      obtain ⟨counted, first, ran⟩ := bind_ok.mp ran
      obtain ⟨spent, second, done⟩ := bind_ok.mp ran
      cases done
      rw [Budget.take_ok] at first second
      have written : size .null = 4 := by decide
      exact ⟨rfl, trivial, by omega, by rw [Journal.values]; omega⟩
  | .bool flag, depth, budget, left, value, ran => by
      rw [plain] at ran
      obtain ⟨counted, first, ran⟩ := bind_ok.mp ran
      obtain ⟨spent, second, done⟩ := bind_ok.mp ran
      cases done
      rw [Budget.take_ok] at first second
      have written : size (.bool flag) = if flag then 4 else 5 := by cases flag <;> decide
      exact ⟨rfl, trivial, by omega, by rw [Journal.values]; omega⟩
  | .int number, depth, budget, left, value, ran => by
      rw [plain] at ran
      obtain ⟨counted, first, ran⟩ := bind_ok.mp ran
      simp only [check_ok, need_ok_iff] at ran
      obtain ⟨range, ran⟩ := ran
      obtain ⟨spent, second, done⟩ := bind_ok.mp ran
      cases done
      rw [Budget.take_ok] at first second
      have written : size (.int number) = (Json.numeral number).length := Json.length_utf8_numeral number
      exact ⟨rfl, range, by omega, by rw [Journal.values]; omega⟩
  | .str text, depth, budget, left, value, ran => by
      rw [plain] at ran
      obtain ⟨counted, first, ran⟩ := bind_ok.mp ran
      simp only [check_ok, checkText_ok] at ran
      obtain ⟨⟨clean, _⟩, ran⟩ := ran
      obtain ⟨spent, second, done⟩ := bind_ok.mp ran
      cases done
      rw [Budget.take_ok] at first second
      have written : size (.str text) = sizeText text := length_utf8_quote text
      exact ⟨rfl, clean, by omega, by rw [Journal.values]; omega⟩
  | .tuple [.str tag, .tuple members], depth, budget, left, value, ran => by
      rw [plain] at ran
      obtain ⟨counted, first, ran⟩ := bind_ok.mp ran
      simp only [check_ok, need_ok_iff] at ran
      obtain ⟨shallow, _, ran⟩ := ran
      obtain ⟨spent, second, ran⟩ := bind_ok.mp ran
      rw [Budget.take_ok] at first second
      split_ifs at ran with array
      · obtain ⟨⟨items, rest⟩, walked, done⟩ := bind_ok.mp ran
        cases done
        obtain ⟨frozen, clean, bytes, counts⟩ := plainItems_sound members walked
        have count := congrArg List.length frozen
        rw [List.length_map] at count
        refine ⟨by rw [freeze_arr, frozen, array], ⟨shallow, clean⟩, ?_, ?_⟩
        · rw [size_arr]
          dsimp only
          omega
        · rw [Journal.values]
          dsimp only
          omega
      · simp only [check_ok, need_ok_iff] at ran
        obtain ⟨object, _, ran⟩ := ran
        obtain ⟨⟨entries, rest⟩, walked, done⟩ := bind_ok.mp ran
        cases done
        obtain ⟨frozen, clean, ordered, _, bytes, counts⟩ := plainMembers_sound members walked
        have count := congrArg List.length frozen
        rw [List.length_map] at count
        refine ⟨by rw [freeze_obj ordered, frozen, object], ⟨shallow, ordered, clean⟩, ?_, ?_⟩
        · rw [size_obj ordered]
          dsimp only
          omega
        · rw [Journal.values]
          dsimp only
          omega
  | .tuple [], _, _, _, _, ran
  | .tuple [_], _, _, _, _, ran
  | .tuple (_ :: _ :: _ :: _), _, _, _, _, ran
  | .tuple [.none, _], _, _, _, _, ran
  | .tuple [.bool _, _], _, _, _, _, ran
  | .tuple [.int _, _], _, _, _, _, ran
  | .tuple [.tuple _, _], _, _, _, _, ran
  | .tuple [.str _, .none], _, _, _, _, ran
  | .tuple [.str _, .bool _], _, _, _, _, ran
  | .tuple [.str _, .int _], _, _, _, _, ran
  | .tuple [.str _, .str _], _, _, _, _, ran => by
      rw [plain_malformed (by simp)] at ran
      exact absurd ran malformed_ne_ok

theorem plainItems_sound
    : (stored : List Stored) → {depth : Nat} → {budget left : Budget} → {items : List Json}
      → plainItems limit depth stored budget = .ok (items, left)
      → items.map freeze = stored ∧ PlainItems limit depth items
        ∧ budget.bytes = left.bytes + (items.map size).sum
        ∧ budget.values = left.values + valuesItems items
  | [], depth, budget, left, items, ran => by
      rw [plainItems] at ran
      cases ran
      exact ⟨rfl, trivial, rfl, rfl⟩
  | item :: rest, depth, budget, left, items, ran => by
      rw [plainItems] at ran
      obtain ⟨⟨value, middle⟩, first, ran⟩ := bind_ok.mp ran
      obtain ⟨⟨others, last⟩, second, done⟩ := bind_ok.mp ran
      cases done
      obtain ⟨frozen, clean, bytes, counts⟩ := plain_sound item first
      obtain ⟨frozenRest, cleanRest, bytesRest, countsRest⟩ := plainItems_sound rest second
      refine ⟨by rw [List.map_cons, frozen, frozenRest], ⟨clean, cleanRest⟩, ?_, ?_⟩
      · rw [List.map_cons, List.sum_cons]
        omega
      · rw [valuesItems]
        omega

theorem plainMembers_sound
    : (stored : List Stored) → {depth : Nat} → {previous : Option Text} → {budget left : Budget}
      → {members : List (Text × Json)}
      → plainMembers limit depth previous stored budget = .ok (members, left)
      → members.map freezeMember = stored ∧ PlainMembers limit depth members
        ∧ (members.map Prod.fst).Pairwise (· < ·)
        ∧ (∀ earlier ∈ previous, ∀ key ∈ members.map Prod.fst, earlier < key)
        ∧ budget.bytes = left.bytes + (members.map sizeMember).sum
        ∧ budget.values = left.values + valuesMembers members
  | [], depth, previous, budget, left, members, ran => by
      rw [plainMembers] at ran
      cases ran
      exact ⟨rfl, trivial, List.Pairwise.nil, by simp, rfl, rfl⟩
  | .tuple [.str key, content] :: rest, depth, previous, budget, left, members, ran => by
      rw [plainMembers] at ran
      simp only [check_ok, checkText_ok, need_ok_iff] at ran
      obtain ⟨⟨clean, _⟩, after, ran⟩ := ran
      obtain ⟨counted, taken, ran⟩ := bind_ok.mp ran
      obtain ⟨⟨value, middle⟩, first, ran⟩ := bind_ok.mp ran
      obtain ⟨⟨others, last⟩, second, done⟩ := bind_ok.mp ran
      cases done
      rw [Budget.take_ok] at taken
      obtain ⟨frozen, cleanValue, bytes, counts⟩ := plain_sound content first
      obtain ⟨frozenRest, cleanRest, ordered, above, bytesRest, countsRest⟩ :=
        plainMembers_sound rest second
      dsimp only at bytesRest countsRest
      have larger : ∀ other ∈ others.map Prod.fst, key < other := above key rfl
      refine ⟨by rw [List.map_cons, freezeMember, frozen, frozenRest], ⟨clean, cleanValue, cleanRest⟩,
        List.Pairwise.cons larger ordered, ?_, ?_, ?_⟩
      · intro earlier found other member
        rw [List.map_cons, List.mem_cons] at member
        rcases member with rfl | later
        · exact after earlier found
        · exact lt_trans (after earlier found) (larger other later)
      · rw [List.map_cons, List.sum_cons, sizeMember]
        dsimp only
        omega
      · rw [valuesMembers]
        dsimp only
        omega
  | .none :: _, _, _, _, _, _, ran
  | .bool _ :: _, _, _, _, _, _, ran
  | .int _ :: _, _, _, _, _, _, ran
  | .str _ :: _, _, _, _, _, _, ran
  | .tuple [] :: _, _, _, _, _, _, ran
  | .tuple [_] :: _, _, _, _, _, _, ran
  | .tuple (_ :: _ :: _ :: _) :: _, _, _, _, _, _, ran
  | .tuple [.none, _] :: _, _, _, _, _, _, ran
  | .tuple [.bool _, _] :: _, _, _, _, _, _, ran
  | .tuple [.int _, _] :: _, _, _, _, _, _, ran
  | .tuple [.tuple _, _] :: _, _, _, _, _, _, ran => by
      rw [plainMembers_malformed (by simp)] at ran
      exact absurd ran malformedMember_ne_ok

end

/-- A budget that covers a spending. -/
theorem Budget.take_of_eq {values size count : Nat} (enough : budget.bytes = bytes + size)
    (counted : budget.values = values + count)
    : budget.take size count = .ok ⟨bytes, values⟩ :=
  Budget.take_ok.mpr ⟨enough, counted⟩

theorem Budget.take_bytes {size : Nat} (enough : bytes = left.bytes + size)
    : Budget.take ⟨bytes, left.values⟩ size 0 = .ok left :=
  Budget.take_ok.mpr ⟨enough, rfl⟩

variable {stored : List Stored}

theorem plain_array {items : List Json} (inner : Budget) (shallow : depth < limit)
    (bytes : budget.bytes = inner.bytes + (2 + (stored.length - 1)))
    (counts : budget.values = inner.values + 1) (wide : stored.length ≤ inner.values)
    (walked : plainItems limit (depth + 1) stored inner = .ok (items, left))
    : plain limit depth (.tuple [.str (py "array"), .tuple stored]) budget = .ok (.arr items, left) := by
  rw [plain, Budget.take_of_eq rfl counts, ok_bind]
  simp only [check_ok, need_ok_iff]
  refine ⟨shallow, wide, ?_⟩
  rw [Budget.take_bytes bytes, ok_bind]
  simp only [if_true]
  rw [walked]
  rfl

theorem plain_object (inner : Budget) (shallow : depth < limit)
    (bytes : budget.bytes = inner.bytes + (2 + (stored.length - 1)))
    (counts : budget.values = inner.values + 1) (wide : 2 * stored.length ≤ inner.values)
    (walked : plainMembers limit (depth + 1) none stored inner = .ok (members, left))
    : plain limit depth (.tuple [.str (py "object"), .tuple stored]) budget
      = .ok (.obj members, left) := by
  have tags : py "object" ≠ py "array" := by decide
  rw [plain, Budget.take_of_eq rfl counts, ok_bind]
  simp only [check_ok, need_ok_iff]
  refine ⟨shallow, by omega, ?_⟩
  rw [Budget.take_bytes bytes, ok_bind]
  simp only [if_neg tags, check_ok, need_ok_iff]
  refine ⟨trivial, wide, ?_⟩
  rw [walked]
  rfl

mutual

/-- The frozen form of a clean value is walked back within its bytes and values. By recursion
on the value.
-/
theorem plain_complete
    : (value : Json) → {depth : Nat} → {budget left : Budget} → Plain limit depth value
      → budget.bytes = left.bytes + size value → budget.values = left.values + values value
      → plain limit depth (freeze value) budget = .ok (value, left)
  | .null, depth, budget, left, _, bytes, counts => by
      have written : size .null = 4 := by decide
      rw [written] at bytes
      rw [Journal.values] at counts
      rw [freeze, plain, Budget.take_of_eq rfl counts, ok_bind,
        Budget.take_bytes bytes]
      rfl
  | .bool flag, depth, budget, left, _, bytes, counts => by
      have written : size (.bool flag) = if flag then 4 else 5 := by cases flag <;> decide
      rw [written] at bytes
      rw [Journal.values] at counts
      rw [freeze, plain, Budget.take_of_eq rfl counts, ok_bind,
        Budget.take_bytes bytes]
      rfl
  | .int number, depth, budget, left, range, bytes, counts => by
      have written : size (.int number) = (Json.numeral number).length := Json.length_utf8_numeral number
      rw [written] at bytes
      rw [Journal.values] at counts
      rw [freeze, plain, Budget.take_of_eq rfl counts, ok_bind]
      simp only [check_ok, need_ok_iff]
      refine ⟨range, ?_⟩
      rw [Budget.take_bytes bytes]
      rfl
  | .str text, depth, budget, left, clean, bytes, counts => by
      have written : size (.str text) = sizeText text := length_utf8_quote text
      rw [written] at bytes
      have fits : text.utf8.length ≤ budget.bytes := by
        rw [sizeText] at bytes
        omega
      rw [Journal.values] at counts
      rw [freeze, plain, Budget.take_of_eq rfl counts, ok_bind]
      simp only [check_ok, checkText_ok]
      refine ⟨⟨clean, fits⟩, ?_⟩
      rw [Budget.take_bytes bytes]
      rfl
  | .arr items, depth, budget, left, ⟨shallow, clean⟩, bytes, counts => by
      have wide := length_le_valuesItems items
      rw [size_arr] at bytes
      rw [Journal.values] at counts
      rw [freeze_arr]
      refine plain_array ⟨left.bytes + (items.map size).sum, left.values + valuesItems items⟩ shallow ?_ ?_ ?_
        (plainItems_complete items clean rfl rfl)
      · rw [List.length_map]
        dsimp only
        omega
      · dsimp only
        omega
      · rw [List.length_map]
        dsimp only
        omega
  | .obj members, depth, budget, left, ⟨shallow, ordered, clean⟩, bytes, counts => by
      have wide := length_le_valuesMembers members
      rw [size_obj ordered] at bytes
      rw [Journal.values] at counts
      rw [freeze_obj ordered]
      refine plain_object ⟨left.bytes + (members.map sizeMember).sum,
        left.values + valuesMembers members⟩ shallow ?_ ?_ ?_
        (plainMembers_complete members clean ordered (fun _ found => nomatch found) rfl rfl)
      · rw [List.length_map]
        dsimp only
        omega
      · dsimp only
        omega
      · rw [List.length_map]
        dsimp only
        omega

theorem plainItems_complete
    : (items : List Json) → {depth : Nat} → {budget left : Budget} → PlainItems limit depth items
      → budget.bytes = left.bytes + (items.map size).sum
      → budget.values = left.values + valuesItems items
      → plainItems limit depth (items.map freeze) budget = .ok (items, left)
  | [], depth, budget, left, _, bytes, counts => by
      rw [List.map_nil, plainItems]
      cases budget
      cases left
      simp_all [valuesItems]
  | item :: rest, depth, budget, left, ⟨head, tail⟩, bytes, counts => by
      rw [List.map_cons, List.sum_cons] at bytes
      rw [valuesItems] at counts
      have first : plain limit depth (freeze item) budget
          = .ok (item, ⟨left.bytes + (rest.map size).sum, left.values + valuesItems rest⟩) :=
        plain_complete item head (by dsimp only; omega) (by dsimp only; omega)
      rw [List.map_cons, plainItems, first, ok_bind]
      dsimp only
      rw [plainItems_complete rest tail rfl rfl]
      rfl

theorem plainMembers_complete
    : (members : List (Text × Json)) → {depth : Nat} → {previous : Option Text}
      → {budget left : Budget} → PlainMembers limit depth members
      → (members.map Prod.fst).Pairwise (· < ·)
      → (∀ earlier ∈ previous, ∀ key ∈ members.map Prod.fst, earlier < key)
      → budget.bytes = left.bytes + (members.map sizeMember).sum
      → budget.values = left.values + valuesMembers members
      → plainMembers limit depth previous (members.map freezeMember) budget = .ok (members, left)
  | [], depth, previous, budget, left, _, _, _, bytes, counts => by
      rw [List.map_nil, plainMembers]
      cases budget
      cases left
      simp_all [valuesMembers]
  | (key, value) :: rest, depth, previous, budget, left, ⟨clean, head, tail⟩, ordered, above, bytes,
      counts => by
      rw [List.map_cons, List.sum_cons, sizeMember] at bytes
      rw [valuesMembers] at counts
      dsimp only at bytes
      obtain ⟨larger, ordered⟩ := List.pairwise_cons.mp ordered
      have fits : key.utf8.length ≤ budget.bytes := by
        rw [sizeText] at bytes
        omega
      have taken : budget.take (sizeText key + 1) 1
          = .ok ⟨left.bytes + (rest.map sizeMember).sum + size value,
            left.values + valuesMembers rest + values value⟩ :=
        Budget.take_of_eq (by omega) (by omega)
      rw [List.map_cons, freezeMember, plainMembers]
      simp only [check_ok, checkText_ok, need_ok_iff]
      refine ⟨⟨clean, fits⟩, fun earlier found => above earlier found key List.mem_cons_self, ?_⟩
      have walked : plain limit depth (freeze value)
          ⟨left.bytes + (rest.map sizeMember).sum + size value,
            left.values + valuesMembers rest + values value⟩
          = .ok (value, ⟨left.bytes + (rest.map sizeMember).sum, left.values + valuesMembers rest⟩) :=
        plain_complete value head rfl rfl
      rw [taken, ok_bind, walked, ok_bind]
      dsimp only
      rw [plainMembers_complete rest tail ordered ?_ rfl rfl]
      · rfl
      · intro earlier found other member
        cases found
        exact larger other member

end

end Walk

end Scanipy.Tools.Worker.Journal
