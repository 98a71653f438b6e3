import Scanipy.Tools.Worker.Journal.Canonical
import Scanipy.Tools.Worker.RuntimePackets

/-! The walk over a frozen document accepts exactly the frozen forms of values within the limits
of the reader.
-/

namespace Scanipy.Tools.Worker.RuntimePackets

open Analysis.Ifds (CheckedString InRange)
open Library Python
open Services.Scan.AcceptedInputs (pendingTokens pendingTokens_append stringSize_eq)
open Journal (Stored freeze freezeMember freeze_arr freeze_obj)

-- One item

variable {characters : Text}

theorem checkText_ok {maximum : Nat}
    : checkText characters maximum = .ok () ↔ CheckedString maximum characters := by
  have short := characters.length_le_utf8
  simp only [checkText, check_ok, demand_ok, CheckedString, List.all_eq_true,
    decide_eq_true_eq]
  constructor
  · rintro ⟨_, nonzero, encodable, fits⟩
    exact ⟨encodable, nonzero, fits⟩
  · rintro ⟨encodable, nonzero, fits⟩
    exact ⟨by omega, nonzero, encodable, fits⟩

theorem stringCost_ok {cost : Nat}
    : stringCost characters = .ok cost
      ↔ CheckedString 8192 characters ∧ Json.quoteCost characters = cost := by
  have same : 2 + (characters.map characterCost).sum = Json.quoteCost characters := by
    rw [← stringSize_eq]
    congr 2
    apply List.map_congr_left
    intro point _
    unfold characterCost Services.Scan.AcceptedInputs.characterSize
    have swapped : point.val ∈ [0x5C, 0x22, 0x08, 0x0C, 0x0A, 0x0D, 0x09]
        ↔ point.val ∈ [0x22, 0x5C, 0x08, 0x0C, 0x0A, 0x0D, 0x09] := by
      simp only [List.mem_cons, List.not_mem_nil, or_false]
      omega
    simp only [swapped]
  rw [stringCost, check_ok, checkText_ok, same, Except.ok.injEq]

theorem needInteger_ok {value number : Int}
    : needInteger (.int value) (-9223372036854775808) maxInteger = .ok number
      ↔ InRange value ∧ value = number := by
  simp only [needInteger, check_ok, demand_ok, Except.ok.injEq]
  unfold InRange maxInteger
  omega

/-- A token that the walk accepts. -/
def Packed (entry : Json.Token × Nat) : Prop :=
  match entry.1 with
  | .arr _ | .obj _ => entry.2 < maxDepth
  | .int value => InRange value
  | .str characters => CheckedString 8192 characters
  | .null | .bool _ => True

/-- A value with its keys in order and within their limit. -/
structure Packs (value : Json) : Prop where
  canonical : value.Canonical
  keys : value.KeysSatisfy (CheckedString 4096)

/-- The frozen forms of pending values. -/
def frozen (values : List (Json × Nat)) : List (Stored × Nat) :=
  values.map fun entry => (freeze entry.1, entry.2)

/-- The row of a member. -/
def storedRow (entry : Text × Stored) : Stored :=
  .tuple [.str entry.1, entry.2]

variable {depth : Nat} {previous : Option Text}

theorem objectRows_cons {row : Stored} {rest : List Stored} {parts : List (Stored × Nat)}
    : objectRows depth previous (row :: rest) = .ok parts
      ↔ ∃ key child tail, row = storedRow (key, child) ∧ CheckedString 4096 key
          ∧ (∀ earlier ∈ previous, earlier < key) ∧ objectRows depth (some key) rest = .ok tail
          ∧ parts = (.str key, depth) :: (child, depth) :: tail := by
  by_cases pair : ∃ key child, row = storedRow (key, child)
  · obtain ⟨key, child, rfl⟩ := pair
    rw [storedRow, objectRows]
    rw [check_ok, checkText_ok, check_ok, demand_ok,
      bind_ok]
    simp only [Except.ok.injEq]
    constructor
    · rintro ⟨checked, above, tail, ran, rfl⟩
      exact ⟨key, child, tail, rfl, checked, above, ran, rfl⟩
    · rintro ⟨_, _, tail, same, checked, above, ran, rfl⟩
      cases same
      exact ⟨checked, above, tail, ran, rfl⟩
  · constructor
    · intro ran
      unfold objectRows at ran
      split at ran
      next impossible => cases impossible
      next key child others same =>
        cases same
        exact absurd ⟨key, child, rfl⟩ pair
      next => cases ran
    · rintro ⟨key, child, _, same, _⟩
      exact absurd ⟨key, child, same⟩ pair

/-- The rows of an object are members with checked keys in order. By list induction. -/
theorem objectRows_ok {rows : List Stored} {parts : List (Stored × Nat)}
    : objectRows depth previous rows = .ok parts
      ↔ ∃ entries : List (Text × Stored), rows = entries.map storedRow
          ∧ (∀ entry ∈ entries, CheckedString 4096 entry.1)
          ∧ (previous.toList ++ entries.map Prod.fst).IsChain (· < ·)
          ∧ parts = entries.flatMap fun entry => [(.str entry.1, depth), (entry.2, depth)] := by
  induction rows generalizing previous parts with
  | nil =>
      rw [objectRows, Except.ok.injEq]
      constructor
      · rintro rfl
        refine ⟨[], rfl, by simp, ?_, rfl⟩
        cases previous <;> simp
      · rintro ⟨entries, nothing, _, _, rfl⟩
        rw [List.map_eq_nil_iff.mp nothing.symm]
        rfl
  | cons row rest ih =>
      rw [objectRows_cons]
      constructor
      · rintro ⟨key, child, tail, rfl, checked, above, ran, rfl⟩
        obtain ⟨entries, rfl, each, ordered, rfl⟩ := ih.mp ran
        refine ⟨(key, child) :: entries, rfl, List.forall_mem_cons.mpr ⟨checked, each⟩, ?_, rfl⟩
        cases previous with
        | none => exact ordered
        | some earlier => exact List.isChain_cons_cons.mpr ⟨above earlier rfl, ordered⟩
      · rintro ⟨entries, same, each, ordered, rfl⟩
        cases entries with
        | nil => cases same
        | cons entry entries =>
            obtain ⟨key, child⟩ := entry
            obtain ⟨rfl, rfl⟩ := List.cons.inj same
            obtain ⟨checked, each⟩ := List.forall_mem_cons.mp each
            have tail : ((some key).toList ++ entries.map Prod.fst).IsChain (· < ·) := by
              cases previous with
              | none => exact ordered
              | some earlier => exact (List.isChain_cons_cons.mp ordered).2
            refine ⟨key, child, _, rfl, checked, fun earlier found => ?_,
              ih.mpr ⟨entries, rfl, each, tail, rfl⟩, rfl⟩
            cases found
            exact (List.isChain_cons_cons.mp ordered).1

variable {value : Json}

theorem freeze_eq_str_iff
    : freeze value = .str characters ↔ value = .str characters := by
  cases value <;> simp [freeze]

variable {values : List (Json × Nat)}

/-- Values whose frozen forms are the parts of rows are the parts of members. By list induction. -/
theorem exists_members {entries : List (Text × Stored)} (same : frozen values
      = entries.flatMap fun entry => [(.str entry.1, depth), (entry.2, depth)])
    : ∃ members : List (Text × Json), members.map (fun member => (member.1, freeze member.2)) = entries
        ∧ values = members.flatMap fun member => [(.str member.1, depth), (member.2, depth)] := by
  induction entries generalizing values with
  | nil => exact ⟨[], rfl, List.map_eq_nil_iff.mp same⟩
  | cons entry entries ih =>
      obtain ⟨key, child⟩ := entry
      cases values with
      | nil => cases same
      | cons first values =>
          cases values with
          | nil => exact absurd (congrArg List.length same) (by simp [frozen])
          | cons second values =>
              obtain ⟨name, nameDepth⟩ := first
              obtain ⟨value, valueDepth⟩ := second
              simp only [frozen, List.map_cons, List.flatMap_cons, List.cons_append,
                List.nil_append, List.cons.injEq, Prod.mk.injEq, freeze_eq_str_iff] at same
              obtain ⟨⟨rfl, rfl⟩, ⟨rfl, rfl⟩, same⟩ := same
              obtain ⟨members, rfl, rfl⟩ := ih same
              exact ⟨(key, value) :: members, rfl, rfl⟩

/-- The token of a value itself. -/
def itemToken : Json → Json.Token
  | .null => .null
  | .bool value => .bool value
  | .int value => .int value
  | .str value => .str value
  | .arr items => .arr items.length
  | .obj members => .obj members.length

/-- The parts of a value, in the order in which they are pushed. -/
def itemParts (depth : Nat) : Json → List (Json × Nat)
  | .arr items => items.map fun item => (item, depth + 1)
  | .obj members =>
      members.flatMap fun member => [(.str member.1, depth + 1), (member.2, depth + 1)]
  | _ => []

theorem tokens_eq_parts (depth : Nat) (value : Json)
    : value.tokens depth = (itemToken value, depth) :: pendingTokens (itemParts depth value) := by
  cases value with
  | arr items =>
      rw [Json.tokens, Json.tokensItems_eq, itemToken, itemParts, pendingTokens, List.flatMap_map]
  | obj members =>
      rw [Json.tokens, Json.tokensMembers_eq, itemToken, itemParts, pendingTokens,
        List.flatMap_assoc]
      congr 2
      funext member
      simp [Json.memberTokens, Json.tokens]
  | null | bool _ | int _ | str _ => rfl

/-- What is pushed for a value is packed. -/
theorem Packs.parts (packs : Packs value)
    : ∀ part ∈ itemParts depth value, Packs part.1 := by
  obtain ⟨canonical, keys⟩ := packs
  cases value with
  | arr items =>
      intro part listed
      obtain ⟨item, member, rfl⟩ := List.mem_map.mp listed
      exact ⟨Json.canonicalItems_iff.mp canonical item member, Json.keysSatisfy_arr.mp keys item member⟩
  | obj members =>
      intro part listed
      obtain ⟨member, found, inside⟩ := List.mem_flatMap.mp listed
      rcases List.mem_pair.mp inside with rfl | rfl
      · exact ⟨trivial, trivial⟩
      · exact ⟨Json.canonicalMembers_iff.mp canonical.2 member found,
          (Json.keysSatisfy_obj.mp keys member found).2⟩
  | null | bool _ | int _ | str _ => exact fun _ listed => nomatch listed

variable {remaining pending : Nat} {written : Nat}

theorem tupleRows_ok {items : List Stored} {parts : List (Stored × Nat)}
    (ran : tupleRows remaining pending depth items = .ok (parts, written))
    : ∃ tag rows, items = [.str tag, .tuple rows] ∧ (tag = py "object" ∨ tag = py "array")
        ∧ depth < maxDepth ∧ containerRows remaining pending depth tag rows = .ok (parts, written) := by
  unfold tupleRows at ran
  split at ran
  next tag body =>
    rw [check_ok, demand_ok, check_ok, demand_ok] at ran
    obtain ⟨known, shallow, ran⟩ := ran
    split at ran
    next rows => exact ⟨tag, rows, rfl, known, shallow, ran⟩
    next => cases ran
  next => cases ran

/-- An item that the walk accepts is the frozen form of a value, once its parts are.
Witness: one case per kind of item; an object comes back from its rows.
-/
theorem writerItem_sound {stored : Stored} {parts : List (Stored × Nat)}
    (ran : writerItem remaining pending depth stored = .ok (parts, written))
    (same : frozen values = parts) (packed : ∀ part ∈ values, Packs part.1)
    : ∃ value, freeze value = stored ∧ itemParts depth value = values
        ∧ (itemToken value).cost = written ∧ Packs value ∧ Packed (itemToken value, depth) := by
  have scalar (value : Json) (frozenAs : freeze value = stored) (none : parts = [])
      (leaf : itemParts depth value = []) (cost : (itemToken value).cost = written)
      (packs : Packs value) (token : Packed (itemToken value, depth))
      : ∃ value, freeze value = stored ∧ itemParts depth value = values
          ∧ (itemToken value).cost = written ∧ Packs value ∧ Packed (itemToken value, depth) := by
    have empty : values = [] := List.map_eq_nil_iff.mp (same.trans none)
    exact ⟨value, frozenAs, leaf.trans empty.symm, cost, packs, token⟩
  cases stored with
  | none =>
      cases ran
      exact scalar .null rfl rfl rfl rfl ⟨trivial, trivial⟩ trivial
  | bool value =>
      cases ran
      exact scalar (.bool value) rfl rfl rfl rfl ⟨trivial, trivial⟩ trivial
  | int value =>
      simp only [writerItem, bind_ok, needInteger_ok] at ran
      obtain ⟨_, ⟨range, rfl⟩, done⟩ := ran
      cases done
      exact scalar (.int value) rfl rfl rfl rfl ⟨trivial, trivial⟩ range
  | str characters =>
      simp only [writerItem, bind_ok, stringCost_ok] at ran
      obtain ⟨_, ⟨checked, rfl⟩, done⟩ := ran
      cases done
      exact scalar (.str characters) rfl rfl rfl rfl ⟨trivial, trivial⟩ checked
  | tuple items =>
      obtain ⟨tag, rows, rfl, known, shallow, ran⟩ := tupleRows_ok ran
      unfold containerRows at ran
      split at ran
      next object =>
        rw [check_ok, bind_ok] at ran
        obtain ⟨_, found, rowsRan, done⟩ := ran
        cases done
        obtain ⟨entries, rfl, checked, ordered, rfl⟩ := objectRows_ok.mp rowsRan
        obtain ⟨members, rfl, rfl⟩ := exists_members same
        have keys : (members.map Prod.fst).Pairwise (· < ·) := by
          rw [List.isChain_iff_pairwise] at ordered
          simpa [Function.comp_def] using ordered
        refine ⟨.obj members, ?_, rfl, ?_, ⟨⟨keys, ?_⟩, ?_⟩, shallow⟩
        · rw [freeze_obj keys, object, List.map_map]
          rfl
        · simp only [itemToken, Json.Token.cost, List.length_map]
          omega
        · rw [Json.canonicalMembers_iff]
          intro member listed
          exact (packed (member.2, depth + 1)
            (List.mem_flatMap.mpr ⟨member, listed, by simp⟩)).canonical
        · rw [Json.keysSatisfy_obj]
          intro member listed
          refine ⟨checked (member.1, freeze member.2) (List.mem_map.mpr ⟨member, listed, rfl⟩), ?_⟩
          exact (packed (member.2, depth + 1)
            (List.mem_flatMap.mpr ⟨member, listed, by simp⟩)).keys
      next other =>
        have array : tag = py "array" := known.resolve_left other
        rw [check_ok] at ran
        obtain ⟨_, done⟩ := ran
        cases done
        have depths : ∀ part ∈ values, part.2 = depth + 1 := by
          intro part listed
          have image : (freeze part.1, part.2) ∈ frozen values := List.mem_map.mpr ⟨part, listed, rfl⟩
          rw [same] at image
          obtain ⟨_, _, pair⟩ := List.mem_map.mp image
          exact (congrArg Prod.snd pair).symm
        have restored : (values.map Prod.fst).map (fun item => (item, depth + 1)) = values := by
          rw [List.map_map]
          conv => rhs; rw [← List.map_id values]
          apply List.map_congr_left
          intro part listed
          exact Prod.ext rfl (depths part listed).symm
        have rowsAre : (values.map Prod.fst).map freeze = rows := by
          have firsts := congrArg (List.map Prod.fst) same
          simpa [frozen, Function.comp_def] using firsts
        refine ⟨.arr (values.map Prod.fst), ?_, restored, ?_, ⟨?_, ?_⟩, shallow⟩
        · rw [freeze_arr, rowsAre, array]
        · rw [← rowsAre]
          simp [itemToken, Json.Token.cost]
        · rw [Json.Canonical, Json.canonicalItems_iff]
          intro item listed
          obtain ⟨part, found, rfl⟩ := List.mem_map.mp listed
          exact (packed part found).canonical
        · rw [Json.keysSatisfy_arr]
          intro item listed
          obtain ⟨part, found, rfl⟩ := List.mem_map.mp listed
          exact (packed part found).keys

/-- The frozen form of a packed value is accepted where its parts are still within the count. -/
theorem writerItem_complete (packs : Packs value) (packed : Packed (itemToken value, depth))
    (counted : pending + (itemParts depth value).length ≤ remaining)
    : writerItem remaining pending depth (freeze value)
      = .ok (frozen (itemParts depth value), (itemToken value).cost) := by
  cases value with
  | null => rfl
  | bool value => rfl
  | int value =>
      have range := needInteger_ok.mpr ⟨packed, rfl⟩
      rw [freeze, writerItem, range]
      rfl
  | str characters =>
      have cost := stringCost_ok.mpr ⟨packed, rfl⟩
      rw [freeze, writerItem, cost]
      rfl
  | arr items =>
      have shallow : depth < maxDepth := packed
      have other : py "array" ≠ py "object" := by decide
      have length : (itemParts depth (.arr items)).length = items.length := List.length_map _
      have room : pending + (items.map freeze).length ≤ remaining := by
        rw [List.length_map]
        omega
      rw [freeze_arr, writerItem, tupleRows, demand, if_pos (.inr rfl), ok_bind, demand,
        if_pos shallow, ok_bind]
      rw [containerRows, if_neg other, demand, if_pos room, ok_bind]
      simp only [frozen, itemParts, List.map_map, Function.comp_def, itemToken, Json.Token.cost,
        List.length_map]
  | obj members =>
      have shallow : depth < maxDepth := packed
      have length : (itemParts depth (.obj members)).length = 2 * members.length := by
        simp [itemParts, List.length_flatMap]
        omega
      have room : pending + 2 * (members.map freezeMember).length ≤ remaining := by
        rw [List.length_map]
        omega
      obtain ⟨⟨ordered, _⟩, keys⟩ := packs
      have rows : objectRows (depth + 1) Option.none (members.map freezeMember)
          = .ok (frozen (itemParts depth (.obj members))) := by
        refine objectRows_ok.mpr
          ⟨members.map fun member => (member.1, freeze member.2), ?_, ?_, ?_, ?_⟩
        · rw [List.map_map]
          rfl
        · intro entry listed
          obtain ⟨member, found, rfl⟩ := List.mem_map.mp listed
          exact (Json.keysSatisfy_obj.mp keys member found).1
        · rw [List.isChain_iff_pairwise]
          simpa [Function.comp_def] using ordered
        · simp only [frozen, itemParts, List.map_flatMap, List.flatMap_map, List.map_cons,
            List.map_nil, freeze]
      rw [freeze_obj ordered, writerItem, tupleRows, demand, if_pos (.inl rfl), ok_bind, demand,
        if_pos shallow, ok_bind]
      rw [containerRows, if_pos rfl, demand, if_pos room, ok_bind, rows, ok_bind]
      simp only [itemToken, Json.Token.cost, List.length_map, Except.ok.injEq, Prod.mk.injEq,
        true_and]
      omega

-- The whole walk

/-- Pending items that the walk accepts: the frozen forms of packed values whose tokens fit. -/
def Walks (remaining encoded : Nat) (pending : List (Stored × Nat)) : Prop :=
  ∃ values, frozen values = pending ∧ (∀ entry ∈ values, Packs entry.1)
    ∧ (∀ entry ∈ pendingTokens values, Packed entry)
    ∧ (pendingTokens values).length ≤ remaining
    ∧ encoded + Json.cost (pendingTokens values) ≤ maxBytes

theorem pendingTokens_reverse (values : List (Json × Nat))
    : (pendingTokens values.reverse).Perm (pendingTokens values) :=
  values.reverse_perm.flatMap_right _

/-- The tokens of the first pending value are its own and those of its parts. -/
theorem pendingTokens_step (value : Json) (depth : Nat) (values : List (Json × Nat))
    : (pendingTokens ((value, depth) :: values)).Perm
        ((itemToken value, depth)
          :: pendingTokens ((itemParts depth value).reverse ++ values)) := by
  have first : pendingTokens ((value, depth) :: values)
      = value.tokens depth ++ pendingTokens values := List.flatMap_cons
  rw [first, tokens_eq_parts, List.cons_append, pendingTokens_append]
  exact .cons _ ((pendingTokens_reverse _).symm.append_right _)

theorem length_le_pendingTokens (values : List (Json × Nat))
    : values.length ≤ (pendingTokens values).length := by
  induction values with
  | nil => exact Nat.zero_le _
  | cons entry values ih =>
      have positive := Json.length_tokens_pos entry.2 entry.1
      have first : pendingTokens (entry :: values)
          = entry.1.tokens entry.2 ++ pendingTokens values := List.flatMap_cons
      rw [first, List.length_append, List.length_cons]
      omega

variable {encoded : Nat}

theorem walks_nil (small : encoded ≤ maxBytes)
    : Walks remaining encoded [] :=
  ⟨[], rfl, by simp, by simp [pendingTokens], by simp [pendingTokens],
    by simpa [pendingTokens] using small⟩

/-- By induction on the count that is left. -/
theorem writerLoop_ok {pending : List (Stored × Nat)} (small : encoded ≤ maxBytes)
    : writerLoop remaining pending encoded = .ok () ↔ Walks remaining encoded pending := by
  induction remaining generalizing pending encoded with
  | zero =>
      cases pending with
      | nil =>
          rw [writerLoop]
          exact ⟨fun _ => walks_nil small, fun _ => rfl⟩
      | cons item pending =>
          constructor
          · intro ran
            cases ran
          · rintro ⟨values, same, _, _, counted, _⟩
            have atLeast := length_le_pendingTokens values
            have none : values = [] := List.length_eq_zero_iff.mp (by omega)
            rw [none] at same
            cases same
  | succ remaining ih =>
      cases pending with
      | nil =>
          rw [writerLoop]
          exact ⟨fun _ => walks_nil small, fun _ => rfl⟩
      | cons item pending =>
          obtain ⟨stored, depth⟩ := item
          rw [writerLoop]
          constructor
          · intro ran
            obtain ⟨⟨parts, written⟩, expanded, rest⟩ := bind_ok.mp ran
            dsimp only at rest
            rw [check_ok, demand_ok] at rest
            obtain ⟨fits, rest⟩ := rest
            obtain ⟨values, same, packs, packed, counted, bytes⟩ := (ih fits).mp rest
            obtain ⟨first, others, rfl, firstSame, othersSame⟩ := List.map_eq_append_iff.mp same
            have partsSame : frozen first.reverse = parts := by
              rw [frozen, List.map_reverse]
              exact (congrArg List.reverse firstSame).trans (List.reverse_reverse _)
            obtain ⟨value, rfl, partsAre, rfl, valuePacks, token⟩ := writerItem_sound expanded
              partsSame fun part listed => packs part (List.mem_append_left _ (List.mem_reverse.mp listed))
            have step := pendingTokens_step value depth others
            rw [partsAre, List.reverse_reverse] at step
            refine ⟨(value, depth) :: others, ?_, ?_, ?_, ?_, ?_⟩
            · exact congrArg (List.cons (freeze value, depth)) othersSame
            · exact List.forall_mem_cons.mpr ⟨valuePacks, fun entry listed =>
                packs entry (List.mem_append_right _ listed)⟩
            · intro entry listed
              rcases List.mem_cons.mp (step.mem_iff.mp listed) with rfl | later
              · exact token
              · exact packed entry later
            · rw [step.length_eq, List.length_cons]
              omega
            · rw [Json.cost_perm step, Json.cost_cons]
              dsimp only
              omega
          · rintro ⟨values, same, packs, packed, counted, bytes⟩
            cases values with
            | nil => cases same
            | cons entry values =>
                obtain ⟨value, valueDepth⟩ := entry
                obtain ⟨head, rfl⟩ := List.cons.inj same
                obtain ⟨rfl, rfl⟩ := Prod.mk.inj head
                have step := pendingTokens_step value valueDepth values
                rw [step.length_eq, List.length_cons] at counted
                rw [Json.cost_perm step, Json.cost_cons] at bytes
                obtain ⟨valuePacks, packs⟩ := List.forall_mem_cons.mp packs
                have token := packed _ (step.mem_iff.mpr List.mem_cons_self)
                have room : (frozen values).length + (itemParts valueDepth value).length ≤ remaining := by
                  have all := length_le_pendingTokens ((itemParts valueDepth value).reverse ++ values)
                  rw [List.length_append, List.length_reverse] at all
                  rw [frozen, List.length_map]
                  omega
                refine bind_ok.mpr ⟨_, writerItem_complete valuePacks token room, ?_⟩
                dsimp only at bytes ⊢
                rw [check_ok, demand_ok]
                refine ⟨by omega, (ih (by omega)).mpr
                  ⟨(itemParts valueDepth value).reverse ++ values, ?_, ?_, ?_, by omega, by omega⟩⟩
                · rw [frozen, List.map_append, List.map_reverse]
                  rfl
                · intro part listed
                  rcases List.mem_append.mp listed with early | late
                  · exact valuePacks.parts part (List.mem_reverse.mp early)
                  · exact packs part late
                · intro found listed
                  exact packed found (step.mem_iff.mpr (List.mem_cons_of_mem _ listed))

mutual

/-- The walk gives back the value that was frozen. By recursion on the value. -/
theorem project_freeze : (value : Json) → value.Canonical → project (freeze value) = value
  | .null, _ | .bool _, _ | .int _, _ | .str _, _ => rfl
  | .arr items, canonical => by
      have other : py "array" ≠ py "object" := by decide
      rw [freeze_arr, project, if_neg other, projectItems_freeze items canonical]
  | .obj members, ⟨ordered, canonical⟩ => by
      rw [freeze_obj ordered, project, if_pos rfl, projectMembers_freeze members canonical]

theorem projectItems_freeze
    : (items : List Json) → Json.CanonicalItems items → projectItems (items.map freeze) = items
  | [], _ => rfl
  | item :: rest, ⟨head, tail⟩ => by
      rw [List.map_cons, projectItems, project_freeze item head, projectItems_freeze rest tail]

theorem projectMembers_freeze
    : (members : List (Text × Json)) → Json.CanonicalMembers members
      → projectMembers (members.map freezeMember) = members
  | [], _ => rfl
  | (key, value) :: rest, ⟨head, tail⟩ => by
      rw [List.map_cons, freezeMember, projectMembers, project_freeze value head,
        projectMembers_freeze rest tail]

end

/-- A document that a packet can hold. -/
structure Packet (value : Json) : Prop where
  dictionary : IsDict value
  packs : Packs value
  tokens : ∀ entry ∈ value.tokens 0, Packed entry
  values : (value.tokens 0).length ≤ maxValues
  bytes : value.dumps.utf8.length ≤ maxBytes

theorem isStoredObject_freeze : IsStoredObject (freeze value) ↔ IsDict value := by
  cases value with
  | obj members => simp [freeze, IsStoredObject, IsDict]
  | arr items =>
      have other : py "array" ≠ py "object" := by decide
      simp [freeze, IsStoredObject, IsDict, other]
  | null | bool _ | int _ | str _ => simp [freeze, IsStoredObject, IsDict]

/-- The writer takes the frozen forms of the documents that a packet can hold. -/
theorem writerDocument_ok {document : Stored}
    : writerDocument document = .ok value ↔ freeze value = document ∧ Packet value := by
  rw [writerDocument, check_ok, writerLoop_ok (Nat.zero_le _),
    check_ok, demand_ok, Except.ok.injEq]
  have single (value : Json) : pendingTokens [(value, 0)] = value.tokens 0 := by
    simp [pendingTokens]
  constructor
  · rintro ⟨⟨values, same, packs, packed, counted, bytes⟩, object, rfl⟩
    obtain ⟨entry, rfl, restored⟩ := List.map_eq_singleton_iff.mp same
    obtain ⟨value, depth⟩ := entry
    obtain ⟨rfl, rfl⟩ := Prod.mk.inj restored
    have entryPacks := packs _ (List.mem_singleton.mpr rfl)
    rw [project_freeze value entryPacks.canonical]
    rw [single] at packed counted bytes
    refine ⟨rfl, isStoredObject_freeze.mp object, entryPacks, packed, counted, ?_⟩
    rw [Json.length_utf8_dumps 0]
    omega
  · rintro ⟨rfl, packet⟩
    refine ⟨⟨[(value, 0)], rfl, ?_, ?_, ?_, ?_⟩, isStoredObject_freeze.mpr packet.dictionary,
      project_freeze value packet.packs.canonical⟩
    · intro entry listed
      rw [List.mem_singleton.mp listed]
      exact packet.packs
    · rw [single]
      exact packet.tokens
    · rw [single]
      exact packet.values
    · rw [single, Nat.zero_add, ← Json.length_utf8_dumps 0]
      exact packet.bytes

end Scanipy.Tools.Worker.RuntimePackets
