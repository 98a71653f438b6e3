import Scanipy.Services.Scan.AcceptedInputs.Policies

/-! What the revisions of a policy do to its grants is transitive, so that a policy that is any
number of revisions later compares with an earlier one as its successor does.
-/

namespace Scanipy.Services.Scan.AcceptedInputs

open Library Python

/-- One of the three statuses of a grant. -/
def IsStatus (status : Json) : Prop :=
  status = .str (py "active") ∨ status = .str (py "retired") ∨ status = .str (py "revoked")

/-- A grant of its shape, whose status has a change time unless it is active. -/
structure IsGrant (grant : Json) : Prop where
  fits : Fits grant (.object grantFields)
  timed : grant.get "status" = .str (py "active") ↔ grant.get "status_changed_at" = .null

/-- The document of a policy. -/
def Reads (signed : Signed) (policy : Json) : Prop :=
  decodeDocument signed.data .policy true = .ok policy

theorem get_eq_memberAt (value : Json) (name : String)
    : value.get name = memberAt value (py name) := by
  cases value <;> rfl

theorem Reads.relations {signed : Signed} {policy : Json} (reads : Reads signed policy)
    : Fits policy (schemaShape .policy) ∧ checkPolicy policy = .ok () := by
  obtain ⟨value, _, rest⟩ := bind_ok.mp reads
  obtain ⟨validated, rest⟩ := check_ok.mp rest
  obtain rfl := Except.ok.inj rest
  obtain ⟨fits, rest⟩ := check_ok.mp validated
  exact ⟨fits, (check_ok.mp rest).2⟩

theorem Reads.isGrant {signed : Signed} {policy : Json} (reads : Reads signed policy)
    {grant : Json} (listed : grant ∈ (policy.get "grants").items)
    : IsGrant grant := by
  obtain ⟨fits, checked⟩ := reads.relations
  have grants : Fits (policy.get "grants") (.array (.object grantFields) 0 64) :=
    fits.field (by simp [schemaFields])
  simp only [checkPolicy, check_ok, visit_ok] at checked
  have granted := checked.2.2.2.2 grant listed
  simp only [checkGrant, check_ok, demand_ok] at granted
  exact ⟨grants.entry listed, granted.2.2.2⟩

variable {first second : Json}

theorem Reads.eq {signed : Signed} (reads : Reads signed first) (other : Reads signed second)
    : first = second :=
  Except.ok.inj (reads.symm.trans other)

/-- No two grants of a policy share an identifier. -/
theorem Reads.unique {signed : Signed} {policy : Json} (reads : Reads signed policy)
    : ((policy.get "grants").items.map fun grant => grant.get "grant_id").Nodup := by
  have checked := reads.relations.2
  simp only [checkPolicy, check_ok, AcceptedInputs.unique, demand_ok] at checked
  exact checked.2.2.1

variable {successor : Json}

/-- The successor under an identifier is the grant that has it. -/
theorem Reads.successorOf_eq_some {signed : Signed} {policy : Json}
    (reads : Reads signed policy) {id : Json}
    : successorOf policy id = some successor
      ↔ successor ∈ (policy.get "grants").items ∧ successor.get "grant_id" = id := by
  constructor
  · intro found
    have listed := List.mem_of_find?_eq_some found
    have named := List.find?_some found
    exact ⟨List.mem_reverse.mp listed, of_decide_eq_true named⟩
  · rintro ⟨listed, named⟩
    cases found : successorOf policy id with
    | none =>
        have absent := List.find?_eq_none.mp found successor (List.mem_reverse.mpr listed)
        exact absurd (decide_eq_true named) absent
    | some other =>
        have member := List.mem_reverse.mp (List.mem_of_find?_eq_some found)
        have decided := List.find?_some found
        have equal : other.get "grant_id" = id := of_decide_eq_true decided
        have identical :=
          List.inj_on_of_nodup_map reads.unique member listed (equal.trans named.symm)
        rw [identical]

/-- A grant has the names of its shape. -/
theorem IsGrant.mem_fixed_iff {grant : Json} (isGrant : IsGrant grant) {key : Text}
    : key ∈ fixed grant
      ↔ key ∈ (grantFields.map Prod.fst).map py ∧ key ∉ [py "status", py "status_changed_at"] := by
  obtain ⟨members, rfl, listed, present⟩ := (fits_object_iff.mp isGrant.fits).1
  rw [fixed, List.mem_filter, decide_eq_true_eq, keys]
  refine and_congr_left fun _ => ⟨?_, present key⟩
  intro member
  obtain ⟨pair, inside, rfl⟩ := List.mem_map.mp member
  exact listed pair inside

/-- The status of a grant is one of three. -/
theorem IsGrant.isStatus {grant : Json} (isGrant : IsGrant grant)
    : IsStatus (grant.get "status") := by
  have fits : Fits (grant.get "status") (.literals ["active", "retired", "revoked"]) :=
    isGrant.fits.field (by simp [grantFields, scopeFields])
  simpa [IsStatus] using fits_literals_iff.mp fits

-- What a grant becomes

/-- The change time of a grant is not after that of its successor, where it has one. -/
def NotBackwards (grant successor : Json) : Prop :=
  ∀ before, utc (grant.get "status_changed_at") false = .ok before
    → ∃ changed, utc (successor.get "status_changed_at") false = .ok changed
        ∧ before.micros ≤ changed.micros

theorem NotBackwards.refl (grant : Json) : NotBackwards grant grant :=
  fun before read => ⟨before, read, le_rfl⟩

variable {third : Json}

theorem NotBackwards.trans (early : NotBackwards first second) (late : NotBackwards second third)
    : NotBackwards first third := by
  intro before read
  obtain ⟨middle, between, above⟩ := early before read
  obtain ⟨after, last, further⟩ := late middle between
  exact ⟨after, last, above.trans further⟩

/-- A moment is no null. -/
theorem utc_null (microseconds : Bool) (moment : Datetime)
    : utc .null microseconds ≠ .ok moment :=
  nofun

/-- A grant and its successor, in words: the same fields, a status that is allowed after it, the
change time of a status that is kept, and no earlier change time.
-/
structure Follows (grant successor : Json) : Prop where
  fields : ∀ key ∈ fixed grant, memberAt grant key = memberAt successor key
  admitted : successor.get "status" ∈ allowed (grant.get "status")
  kept : successor.get "status" = grant.get "status"
    → successor.get "status_changed_at" = grant.get "status_changed_at"
  notBackwards : NotBackwards grant successor

theorem checkSuccessor_ok {grant : Json} (isGrant : IsGrant grant)
    : checkSuccessor grant successor = .ok () ↔ Follows grant successor := by
  have present : grant.get "status_changed_at" ≠ .null
      → ∃ before, utc (grant.get "status_changed_at") false = .ok before := by
    intro present
    have fits : Fits (grant.get "status_changed_at") (.nullable .second) :=
      isGrant.fits.field (by simp [grantFields, scopeFields])
    rcases fits_nullable_iff.mp fits with null | second
    · exact absurd null present
    · exact exists_utc_of_second second
  simp only [checkSuccessor, check_ok, demand_ok]
  constructor
  · rintro ⟨fields, admitted, times⟩
    split at times
    next unchanged =>
      have kept := demand_ok.mp times
      refine ⟨fields, admitted, fun _ => kept, ?_⟩
      intro before read
      exact ⟨before, by rw [kept, read], le_rfl⟩
    next other =>
      refine ⟨fields, admitted, fun equal => absurd equal other, ?_⟩
      intro before read
      split at times
      next =>
        obtain ⟨changed, late, rest⟩ := bind_ok.mp times
        obtain ⟨_, early, above⟩ := bind_ok.mp rest
        rw [read] at early
        cases early
        exact ⟨changed, late, demand_ok.mp above⟩
      next null =>
        rw [not_not.mp null] at read
        exact absurd read (utc_null false before)
  · intro follows
    refine ⟨follows.fields, follows.admitted, ?_⟩
    split
    next unchanged => exact demand_ok.mpr (follows.kept unchanged)
    next other =>
      split
      next dated =>
        obtain ⟨before, early⟩ := present dated
        obtain ⟨changed, late, above⟩ := follows.notBackwards before early
        exact bind_ok.mpr ⟨changed, late, bind_ok.mpr
          ⟨before, early, demand_ok.mpr above⟩⟩
      next => rfl

@[simp]
theorem allowed_active
    : allowed (.str (py "active"))
      = [.str (py "active"), .str (py "retired"), .str (py "revoked")] :=
  rfl

@[simp]
theorem allowed_retired
    : allowed (.str (py "retired")) = [.str (py "retired"), .str (py "revoked")] := by
  have apart : py "retired" ≠ py "active" := by decide
  simp [allowed, apart]

@[simp]
theorem allowed_revoked : allowed (.str (py "revoked")) = [.str (py "revoked")] := by
  have apart : py "revoked" ≠ py "active" ∧ py "revoked" ≠ py "retired" := by decide
  simp [allowed, apart]

/-- What is allowed after what is allowed is allowed. -/
theorem allowed_trans (known : IsStatus first) (early : second ∈ allowed first)
    (late : third ∈ allowed second)
    : third ∈ allowed first := by
  rcases known with rfl | rfl | rfl
  · have options : second = .str (py "active") ∨ second = .str (py "retired")
        ∨ second = .str (py "revoked") := by
      simpa using early
    rcases options with rfl | rfl | rfl
    · exact late
    · exact List.mem_cons_of_mem _ (by simpa using late)
    · exact List.mem_cons_of_mem _ (List.mem_cons_of_mem _ (by simpa using late))
  · have options : second = .str (py "retired") ∨ second = .str (py "revoked") := by
      simpa using early
    rcases options with rfl | rfl
    · exact late
    · exact List.mem_cons_of_mem _ (by simpa using late)
  · obtain rfl : second = .str (py "revoked") := by simpa using early
    exact late

/-- A status that is reached again was not left. -/
theorem allowed_antisymm (known : IsStatus first) (early : second ∈ allowed first)
    (late : first ∈ allowed second)
    : second = first := by
  have apart : py "active" ≠ py "retired" ∧ py "active" ≠ py "revoked"
      ∧ py "retired" ≠ py "revoked" := by
    decide
  rcases known with rfl | rfl | rfl
  · have options : second = .str (py "active") ∨ second = .str (py "retired")
        ∨ second = .str (py "revoked") := by
      simpa using early
    rcases options with rfl | rfl | rfl
    · rfl
    · simp [apart] at late
    · simp [apart] at late
  · have options : second = .str (py "retired") ∨ second = .str (py "revoked") := by
      simpa using early
    rcases options with rfl | rfl
    · rfl
    · simp [apart] at late
  · simpa using early

theorem Follows.trans (grants : IsGrant first) (between : IsGrant second)
    (early : Follows first second) (late : Follows second third)
    : Follows first third := by
  refine ⟨?_, allowed_trans grants.isStatus early.admitted late.admitted, ?_,
    early.notBackwards.trans late.notBackwards⟩
  · intro key listed
    have carried : key ∈ fixed second := between.mem_fixed_iff.mpr (grants.mem_fixed_iff.mp listed)
    exact (early.fields key listed).trans (late.fields key carried)
  · intro back
    have returned : first.get "status" ∈ allowed (second.get "status") := back ▸ late.admitted
    have stayed := allowed_antisymm grants.isStatus early.admitted returned
    exact (late.kept (back.trans stayed.symm)).trans (early.kept stayed)

/-- Every grant of a policy is followed by its successor in the other. -/
def Evolves (old new : Json) : Prop :=
  ∀ grant ∈ (old.get "grants").items, ∃ successor,
    successorOf new (grant.get "grant_id") = some successor ∧ Follows grant successor

variable {old new : Json}

theorem visit_checkRetained_ok {signed : Signed} (reads : Reads signed old)
    : Metered.visit (checkRetained new) (old.get "grants").items = .ok () ↔ Evolves old new := by
  rw [visit_ok]
  refine forall₂_congr fun grant listed => ?_
  unfold checkRetained
  cases found : successorOf new (grant.get "grant_id") with
  | none => simp
  | some successor => simp [checkSuccessor_ok (reads.isGrant listed)]

theorem Evolves.trans {before between : Signed} (reads : Reads before first)
    (middle : Reads between second) (early : Evolves first second) (late : Evolves second third)
    : Evolves first third := by
  intro grant listed
  obtain ⟨next, found, follows⟩ := early grant listed
  obtain ⟨member, named⟩ := middle.successorOf_eq_some.mp found
  obtain ⟨final, further, following⟩ := late next member
  rw [named] at further
  exact ⟨final, further, follows.trans (reads.isGrant listed) (middle.isGrant member) following⟩

theorem sameNamespace_ok {left right : Json}
    : sameNamespace left right = .ok ()
      ↔ ∀ key ∈ ["registry_id", "scope", "org_id"], left.get key = right.get key :=
  demand_ok

/-- The policies are of one namespace, the second has the higher revision, and its grants are what
those of the first became.
-/
structure Later (first second : Json) : Prop where
  namespaces : sameNamespace first second = .ok ()
  above : (first.get "revision").integer < (second.get "revision").integer
  evolves : Evolves first second

/-- The second signed policy is later than the first. -/
def After (first second : Signed) : Prop :=
  ∃ old new, Reads first old ∧ Reads second new ∧ Later old new

theorem policyEvolution_self (crypto : Cryptography) (document : Json) (data : Bytes)
    : policyEvolution crypto document data document data = .ok () := by
  simp [policyEvolution, sameNamespace, same, demand, check_ok]

/-- A policy two revisions later evolves from the earlier one if it is later. -/
theorem Later.policyEvolution {signed : Signed} (crypto : Cryptography) (reads : Reads signed old)
    (later : Later old new) (far : (new.get "revision").integer ≠ (old.get "revision").integer + 1)
    (data : Bytes)
    : policyEvolution crypto old signed.data new data = .ok () := by
  have above := later.above
  simp only [AcceptedInputs.policyEvolution, check_ok, demand_ok]
  refine ⟨later.namespaces, above.le, ?_⟩
  rw [if_neg above.ne', check_ok, checkAdjacent, if_neg far]
  exact ⟨rfl, (visit_checkRetained_ok reads).mpr later.evolves⟩

instance : Trans After After After where
  trans := by
    rintro first second third ⟨old, middle, early, between, before⟩ ⟨other, new, again, late, after⟩
    obtain rfl := between.eq again
    refine ⟨old, new, early, late, ?_, before.above.trans after.above,
      before.evolves.trans early between after.evolves⟩
    rw [sameNamespace_ok] at *
    intro key listed
    exact (sameNamespace_ok.mp before.namespaces key listed).trans
      (sameNamespace_ok.mp after.namespaces key listed)

-- Adjacent policies

variable {first second : Signed}

namespace Cryptography

variable {crypto : Cryptography}

theorem adminSignedDocument_returns {signed : Signed} {schema : SchemaId} {root : RsaPublicKey}
    {trust : Json}
    : Charged.Returns (crypto.adminSignedDocument signed schema root trust) fun document =>
        decodeDocument signed.data schema true = .ok document := by
  refine .bind (.lift fun _ => id) fun document decoded => ?_
  exact .skip fun _ => .skip fun _ => .skip fun _ => .pure decoded

/-- What the administrator's path establishes of a policy and of the one before it. -/
def Admitted (crypto : Cryptography) (policy : Signed) : Option Signed → Prop
  | none => ∃ document, Reads policy document ∧ (document.get "revision").integer = 1
  | some prior => ∃ old document, Reads prior old ∧ Reads policy document
      ∧ (document.get "revision").integer = (old.get "revision").integer + 1
      ∧ policyEvolution crypto old prior.data document policy.data = .ok ()

variable {previous : Option Signed}

theorem adminPolicy_returns {policy : Signed} {trust : InstalledTrust} {rootSpki : Bytes}
    : Charged.Returns (crypto.adminPolicy policy trust rootSpki previous) fun _ =>
        crypto.Admitted policy previous := by
  refine .skip fun trusted => .skip fun _ => ?_
  cases previous with
  | none =>
      refine .skip fun _ => .skip fun root => .bind adminSignedDocument_returns ?_
      intro document reads
      exact .check fun first => (Charged.Returns.any _).mono fun _ _ => ⟨document, reads, first⟩
  | some prior =>
      refine .skip fun _ => .skip fun root => .bind adminSignedDocument_returns ?_
      intro document reads
      refine .bind adminSignedDocument_returns fun old former => .check fun next => ?_
      exact .skip fun _ => .lift fun _ evolved => ⟨old, document, former, reads, next, evolved⟩

/-- The policy passes after the one before it, for some installed trust and root key. -/
def Passes (crypto : Cryptography) (previous : Option Signed) (policy : Signed) : Prop :=
  ∃ trust rootSpki, crypto.verifyAdminPolicy policy trust rootSpki previous = .ok ()

theorem Passes.admitted {policy : Signed} (passes : crypto.Passes previous policy)
    : crypto.Admitted policy previous := by
  obtain ⟨trust, rootSpki, passed⟩ := passes
  unfold verifyAdminPolicy at passed
  cases ran : crypto.adminPolicy policy trust rootSpki previous adminWork with
  | error raised =>
      rw [ran] at passed
      cases passed
  | ok outcome => exact adminPolicy_returns ran

/-- A policy that passes after another is later. -/
theorem Passes.after (passes : crypto.Passes (some first) second)
    : After first second := by
  obtain ⟨old, new, early, late, next, evolved⟩ := passes.admitted
  have above : (old.get "revision").integer < (new.get "revision").integer := by omega
  simp only [policyEvolution, check_ok] at evolved
  obtain ⟨namespaces, _, rest⟩ := evolved
  rw [if_neg above.ne'] at rest
  have retained := (check_ok.mp rest).2
  exact ⟨old, new, early, late, namespaces, above,
    (visit_checkRetained_ok early).mp retained⟩

/-- The policies passed one after another, the first of them without a predecessor. -/
structure Adopted (crypto : Cryptography) (policies : List Signed) : Prop where
  first : ∀ policy ∈ policies.head?, crypto.Passes none policy
  next : policies.IsChain fun earlier later => crypto.Passes (some earlier) later

variable {policies : List Signed} {place : Nat}

/-- Every policy that was adopted has a document. -/
theorem Adopted.reads (adopted : crypto.Adopted policies) (below : place < policies.length)
    : ∃ document, Reads policies[place] document := by
  cases place with
  | zero =>
      have head : policies[0] ∈ policies.head? := by
        rw [List.head?_eq_getElem?, List.getElem?_eq_getElem below]
        rfl
      obtain ⟨document, reads, _⟩ := (adopted.first _ head).admitted
      exact ⟨document, reads⟩
  | succ place =>
      have passes := List.isChain_iff_getElem.mp adopted.next place below
      obtain ⟨_, document, _, reads, _⟩ := passes.admitted
      exact ⟨document, reads⟩

variable {other : Nat}

/-- A policy is later than all that were adopted before it. -/
theorem Adopted.after (adopted : crypto.Adopted policies) (order : place < other)
    (below : other < policies.length)
    : After policies[place] policies[other] := by
  have chain : policies.IsChain After := adopted.next.imp fun _ _ passes => passes.after
  exact List.pairwise_iff_getElem.mp chain.pairwise place other (order.trans below) below order

/-- Every policy evolves into every one that was adopted after it. -/
theorem Adopted.policyEvolution (adopted : crypto.Adopted policies) (order : place < other)
    (below : other < policies.length) (early : Reads policies[place] old)
    (late : Reads policies[other] new)
    : AcceptedInputs.policyEvolution crypto old policies[place].data new policies[other].data
      = .ok () := by
  rcases Nat.lt_or_eq_of_le (Nat.succ_le_of_lt order) with far | rfl
  · obtain ⟨_, _, before, after, later⟩ := adopted.after order below
    obtain ⟨_, middle, again, between, step⟩ :=
      adopted.after (Nat.lt_succ_self place) (far.trans below)
    obtain ⟨_, _, former, last, further⟩ := adopted.after far below
    obtain rfl := before.eq early
    obtain rfl := after.eq late
    obtain rfl := again.eq early
    obtain rfl := former.eq between
    obtain rfl := last.eq late
    refine later.policyEvolution crypto early ?_ _
    have one := step.above
    have two := further.above
    omega
  · have passes := List.isChain_iff_getElem.mp adopted.next place below
    obtain ⟨_, _, before, after, _, evolved⟩ := passes.admitted
    obtain rfl := before.eq early
    obtain rfl := after.eq late
    exact evolved

end Cryptography

theorem Follows.notReactivated {grant : Json} (follows : Follows grant successor)
    (retired : grant.get "status" = .str (py "retired"))
    : successor.get "status" ≠ .str (py "active") := by
  have apart : py "active" ≠ py "retired" ∧ py "active" ≠ py "revoked" := by decide
  have admitted := follows.admitted
  intro active
  rw [retired, active] at admitted
  simp [apart] at admitted

theorem Follows.staysRevoked {grant : Json} (follows : Follows grant successor)
    (revoked : grant.get "status" = .str (py "revoked"))
    : successor.get "status" = .str (py "revoked") := by
  have admitted := follows.admitted
  rw [revoked] at admitted
  simpa using admitted

theorem Follows.get_eq {grant : Json} (isGrant : IsGrant grant) (follows : Follows grant successor)
    {name : String} (listed : name ∈ grantFields.map Prod.fst) (notStatus : name ≠ "status")
    (notChanged : name ≠ "status_changed_at")
    : successor.get name = grant.get name := by
  have key : py name ∈ fixed grant := by
    rw [isGrant.mem_fixed_iff]
    refine ⟨List.mem_map_of_mem listed, ?_⟩
    have apart : ∀ name ∈ grantFields.map Prod.fst, name ≠ "status"
        → name ≠ "status_changed_at" → py name ∉ [py "status", py "status_changed_at"] := by
      decide +kernel
    exact apart name listed notStatus notChanged
  rw [get_eq_memberAt, get_eq_memberAt, follows.fields _ key]

/-- Every grant of the first policy is in the second with the fields other than its status, is not
active again after it was retired, stays revoked, and does not change at an earlier time.
-/
def Retains (old new : Json) : Prop :=
  ∀ grant ∈ (old.get "grants").items, ∃ successor ∈ (new.get "grants").items,
    (∀ name ∈ grantFields.map Prod.fst, name ≠ "status" → name ≠ "status_changed_at"
      → successor.get name = grant.get name)
    ∧ (grant.get "status" = .str (py "retired") → successor.get "status" ≠ .str (py "active"))
    ∧ (grant.get "status" = .str (py "revoked") → successor.get "status" = .str (py "revoked"))
    ∧ NotBackwards grant successor

theorem Evolves.retains (early : Reads first old) (late : Reads second new)
    (evolves : Evolves old new)
    : Retains old new := by
  intro grant listed
  obtain ⟨successor, found, follows⟩ := evolves grant listed
  obtain ⟨member, _⟩ := late.successorOf_eq_some.mp found
  exact ⟨successor, member, fun name => follows.get_eq (early.isGrant listed),
    follows.notReactivated, follows.staysRevoked, follows.notBackwards⟩

theorem Retains.refl (policy : Json) : Retains policy policy :=
  fun grant listed => ⟨grant, listed, fun _ _ _ _ => rfl,
    fun retired active => by
      rw [retired] at active
      exact absurd (Json.str.inj active) (by decide),
    id, NotBackwards.refl grant⟩

namespace Cryptography

/-- Two policies have one digest. -/
def Collides (crypto : Cryptography) (first second : Signed) : Prop :=
  first.data ≠ second.data
  ∧ crypto.sha256 (inDomain .policy first.data) = crypto.sha256 (inDomain .policy second.data)

variable {crypto : Cryptography} {oldBytes bytes : Bytes}

theorem policyEvolution_adjacent {policy : Json}
    (evolved : policyEvolution crypto old oldBytes policy bytes = .ok ())
    (next : (policy.get "revision").integer = (old.get "revision").integer + 1)
    : policy.get "previous_policy_digest" = .str (crypto.domainDigest .policy oldBytes) := by
  simp only [policyEvolution, check_ok] at evolved
  have rest := evolved.2.2
  rw [if_neg (by omega), check_ok, checkAdjacent, if_pos next, check_ok,
    demand_ok] at rest
  exact rest.1.1

/-- A policy passes after one policy of the revision below it only. -/
theorem Passes.predecessor {policy : Signed} (passes : crypto.Passes (some first) policy)
    (other : crypto.Passes (some second) policy)
    : second.data = first.data ∨ crypto.Collides second first := by
  obtain ⟨_, document, _, reads, next, evolved⟩ := passes.admitted
  obtain ⟨_, again, _, read, following, evolving⟩ := other.admitted
  obtain rfl := read.eq reads
  have named := policyEvolution_adjacent evolved next
  rw [policyEvolution_adjacent evolving following] at named
  have digests := hex_injective (Json.str.inj named)
  rcases eq_or_ne second.data first.data with equal | differs
  · exact .inl equal
  · exact .inr ⟨differs, digests⟩

theorem policyEvolution_revision {policy : Json}
    (evolved : policyEvolution crypto old oldBytes policy bytes = .ok ())
    (equal : (policy.get "revision").integer = (old.get "revision").integer)
    : bytes = oldBytes := by
  simp only [policyEvolution, check_ok] at evolved
  have rest := evolved.2.2
  rw [if_pos equal, demand_ok] at rest
  exact rest

/-- Of policies that passed one after another, every earlier one evolves into every later one and
keeps its grants there; no other policy passes as the predecessor in the place of one of them, and
none of its revision is one that it evolves into. Witness: the evolution of grants is transitive
over the chain, and the digest of the predecessor is in the next policy.
-/
theorem policies_evolve (crypto : Cryptography) (policies : List Signed)
    (adopted : crypto.Adopted policies)
    : (∀ place other (below : other < policies.length) (order : place ≤ other), ∃ old new,
          Reads policies[place] old ∧ Reads policies[other] new
          ∧ policyEvolution crypto old policies[place].data new policies[other].data = .ok ()
          ∧ Retains old new)
      ∧ (∀ place (below : place + 1 < policies.length) other,
          crypto.Passes (some other) policies[place + 1]
          → other.data = policies[place].data ∨ crypto.Collides other policies[place])
      ∧ ∀ place (below : place < policies.length) other old new,
          Reads policies[place] old → Reads other new
          → (new.get "revision").integer = (old.get "revision").integer
          → policyEvolution crypto old policies[place].data new other.data = .ok ()
          → other.data = policies[place].data := by
  refine ⟨?_, ?_, ?_⟩
  · intro place other below order
    rcases Nat.eq_or_lt_of_le order with rfl | before
    · obtain ⟨document, reads⟩ := adopted.reads below
      exact ⟨document, document, reads, reads, policyEvolution_self crypto document _,
        Retains.refl document⟩
    · obtain ⟨old, new, early, late, later⟩ := adopted.after before below
      exact ⟨old, new, early, late, adopted.policyEvolution before below early late,
        later.evolves.retains early late⟩
  · intro place below other passes
    exact Passes.predecessor (List.isChain_iff_getElem.mp adopted.next place below) passes
  · intro place below other old new _ _ equal evolved
    exact policyEvolution_revision evolved equal

end Cryptography

namespace Sample

def grant (status : String) (changed : Json) : Json :=
  .record [("capability", .str (py "publish-builtin")),
    ("grant_id", ofUuid 4), ("issuer_actor_id", ofUuid 5), ("key_id", .str (py "k")),
    ("key_version", .int 1), ("not_after", .str (py "2026-07-01T00:00:00Z")),
    ("not_before", .str (py "2026-01-01T00:00:00Z")), ("org_id", ofUuid 2),
    ("scope", .str (py "customer")), ("signature_profile", .str (py signatureProfile)),
    ("spki_sha256", .str (List.replicate 64 (Fin.ofNat 0x110000 0x30))),
    ("status", .str (py status)), ("status_changed_at", changed)]

/-- A policy of the namespace, by its event, its revision, its predecessor and its grants. -/
def policy (event : Uuid) (revision : Int) (previous : Json) (grants : List Json) : Json :=
  .record [("event_id", ofUuid event), ("expires_at", .str (py "2027-01-01T00:00:00Z")),
    ("grants", .arr grants), ("org_id", ofUuid 2), ("previous_policy_digest", previous),
    ("registry_id", ofUuid 1), ("revision", .int revision),
    ("schema", .str (py SchemaId.policy.name)), ("scope", .str (py "customer")),
    ("valid_from", .str (py "2026-01-01T00:00:00Z"))]

def signed (document : Json) : Signed :=
  ⟨document.dumps.utf8, List.replicate 384 0⟩

def firstPolicy : Signed :=
  signed (policy 3 1 .null [grant "active" .null])

/-- A first policy without grants, by its event. -/
def emptyPolicy (event : Uuid) : Signed :=
  signed (policy event 1 .null [])

def rootKey : Bytes :=
  pyb "root key"

def firstDigest : Bytes :=
  toBytes 32 0x645a24069404327eb674553eb120071556eb50c13fd7ba173af6a81903136d85

def secondPolicy : Signed :=
  signed (policy 6 2 (.str (hex firstDigest))
    [grant "retired" (.str (py "2026-02-01T00:00:00Z"))])

def rootDigest : Bytes :=
  toBytes 32 0xadba1ce1a33040f83f16ac2a8feb77eb34bf925101edda4a5b10e567ba4eb9dc

/-- SHA-256 on the root key and on the first policy, and a root that signs all policies. -/
def cryptography : Cryptography where
  sha256 := (Equiv.swap rootKey rootDigest).trans
    (Equiv.swap (inDomain .policy firstPolicy.data) firstDigest)
  loadDer data := some ⟨3072, 65537, data⟩
  verifies _ _ _ := true

def trust : InstalledTrust :=
  ⟨8, 1, py "customer", some 2, hex rootDigest, 9, py SchemaId.installedTrust.name⟩

theorem adopted : cryptography.Adopted [firstPolicy, secondPolicy] := by
  have passed : cryptography.verifyAdminPolicy firstPolicy trust rootKey none = .ok ()
      ∧ cryptography.verifyAdminPolicy secondPolicy trust rootKey (some firstPolicy) = .ok () := by
    decide +kernel
  refine ⟨?_, List.isChain_cons_cons.mpr ⟨⟨trust, rootKey, passed.2⟩, .singleton _⟩⟩
  intro policy member
  obtain rfl := Option.some.inj member
  exact ⟨trust, rootKey, passed.1⟩

end Sample

theorem policies_evolve_retired
    : ∃ old new, Reads Sample.firstPolicy old ∧ Reads Sample.secondPolicy new
        ∧ policyEvolution Sample.cryptography old Sample.firstPolicy.data new
            Sample.secondPolicy.data
          = .ok ()
        ∧ Retains old new :=
  (Cryptography.policies_evolve Sample.cryptography [Sample.firstPolicy, Sample.secondPolicy]
    Sample.adopted).1 0 1 (by decide) (by decide)

/-- The root may sign two policies of one revision, and the last policy of a chain has no successor
that names it.
-/
theorem last_policy_replaced
    : ¬∀ (crypto : Cryptography) (policies : List Signed), Function.Injective crypto.sha256
        → crypto.Adopted policies
        → ∀ place (below : place < policies.length) other old new,
            Reads policies[place] old → Reads other new
            → (new.get "revision").integer = (old.get "revision").integer
            → crypto.Adopted (policies.set place other) → other.data = policies[place].data := by
  intro claimed
  have adopted (event : Uuid)
      (passed : Sample.cryptography.verifyAdminPolicy (Sample.emptyPolicy event) Sample.trust
        Sample.rootKey none = .ok ())
      : Sample.cryptography.Adopted [Sample.emptyPolicy event] := by
    refine ⟨?_, .singleton _⟩
    intro policy member
    obtain rfl := Option.some.inj member
    exact ⟨Sample.trust, Sample.rootKey, passed⟩
  obtain ⟨passed, otherPassed, read, otherRead⟩ :
      Sample.cryptography.verifyAdminPolicy (Sample.emptyPolicy 3) Sample.trust Sample.rootKey none
          = .ok ()
        ∧ Sample.cryptography.verifyAdminPolicy (Sample.emptyPolicy 7) Sample.trust Sample.rootKey
            none
          = .ok ()
        ∧ Reads (Sample.emptyPolicy 3) (Sample.policy 3 1 .null [])
        ∧ Reads (Sample.emptyPolicy 7) (Sample.policy 7 1 .null []) := by
    unfold Reads
    decide +kernel
  have equal := claimed Sample.cryptography [Sample.emptyPolicy 3] (Equiv.injective _)
    (adopted 3 passed) 0 (by decide) (Sample.emptyPolicy 7) _ _ read otherRead rfl
    (adopted 7 otherPassed)
  exact absurd equal (by decide)

end Scanipy.Services.Scan.AcceptedInputs
