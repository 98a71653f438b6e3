import Scanipy.Tools.Worker.Journal.Pool

/-! What the end of a pool makes sure of: every blob was referred to, and the references form an
acyclic graph that is not deep.
-/

namespace Scanipy.Tools.Worker.Journal

open Library
open Library.Metered (lift visit)
open Python

/-- A call of `resolve`. -/
structure Resolution where
  reference : Json
  source : Text
  cap : Nat

/-- The digest that a reference names. -/
def Resolution.digest (call : Resolution) : Option Text :=
  (field call.reference "sha256" >>= textOf).toOption

/-- One of the calls refers from a source to a digest. -/
def Refers (calls : List Resolution) (source target : Text) : Prop :=
  ∃ call ∈ calls, call.source = source ∧ call.digest = some target

section

variable (imports : Imports)

/-- Calls of `resolve` in turn. -/
def resolveAll : List Resolution → PoolM Unit
  | [] => pure ()
  | call :: rest => do
      let _ ← resolve imports call.reference call.source call.cap
      resolveAll rest

variable {imports} {pool : Pool}

/-- A call that returns records its reference, whose digest is that of a blob. -/
theorem resolve_returns {call : Resolution} {next : Pool} {data : Bytes}
    (ran : resolve imports call.reference call.source call.cap pool = (.ok data, next))
    : ∃ digest, call.digest = some digest ∧ digest ∈ pool.blobs.keys
      ∧ next.blobs = pool.blobs ∧ next.used = pool.used.add digest
      ∧ next.graph
        = pool.graph.set call.source ((pool.graph.getD call.source []).add digest) := by
  simp only [resolve, Metered.bind_returns, Metered.lift_returns] at ran
  obtain ⟨_, _, ⟨_, rfl⟩, digest, _, ⟨named, rfl⟩, size, _, ⟨_, rfl⟩, followed⟩ := ran
  refine ⟨digest, by rw [Resolution.digest, named]; rfl, ?_⟩
  unfold follow at followed
  obtain ⟨outcome, rfl⟩ := Prod.mk.inj followed
  obtain ⟨_, outcome⟩ := check_ok.mp outcome
  cases found : pool.blobs.get? digest with
  | none =>
      rw [found] at outcome
      cases outcome
  | some blob =>
      exact ⟨List.mem_map_of_mem (Dict.mem_of_get? found), rfl, rfl, rfl⟩

/-- What a pool has recorded of some calls. -/
structure Recorded (calls : List Resolution) (before after : Pool) : Prop where
  blobs : after.blobs = before.blobs
  known : ∀ call ∈ calls, ∃ digest, call.digest = some digest ∧ digest ∈ before.blobs.keys
  used : ∀ digest, digest ∈ after.used
    ↔ digest ∈ before.used ∨ ∃ call ∈ calls, call.digest = some digest
  graph : ∀ source target, target ∈ after.references source
    ↔ target ∈ before.references source ∨ Refers calls source target

/-- By induction on the calls. -/
theorem recorded_resolveAll {calls : List Resolution} {before after : Pool}
    (ran : resolveAll imports calls before = (.ok (), after))
    : Recorded calls before after := by
  induction calls generalizing before with
  | nil =>
      cases ran
      exact ⟨rfl, by simp, by simp, by simp [Refers]⟩
  | cons call rest ih =>
      obtain ⟨data, middle, resolved, ran⟩ := Metered.bind_returns.mp ran
      obtain ⟨digest, named, held, blobs, used, graph⟩ := resolve_returns resolved
      have later := ih ran
      refine ⟨later.blobs.trans blobs, ?_, fun other => ?_, fun source target => ?_⟩
      · intro other listed
        rcases List.mem_cons.mp listed with rfl | after
        · exact ⟨digest, named, held⟩
        · rw [← blobs]
          exact later.known other after
      · rw [later.used, used, PySet.mem_add]
        simp only [List.exists_mem_cons_iff, named, Option.some.injEq, eq_comm, or_assoc]
      · have here : target ∈ middle.references source
            ↔ target ∈ before.references source ∨ (call.source = source ∧ target = digest) := by
          rw [Pool.references, graph, Dict.getD_set]
          split
          next same =>
            rw [PySet.mem_add, ← same]
            simp [Pool.references]
          next other => simp [Pool.references, other]
        rw [later.graph, here]
        simp only [Refers, List.exists_mem_cons_iff, named, Option.some.injEq, eq_comm, or_assoc]

variable {blobs : List EvidenceBlob}

/-- The blobs that are admitted are those that are supplied, by induction on them. -/
theorem mem_admitBlobs {work total : Nat} {before after : Dict Text Bytes}
    (admitted : admitBlobs imports blobs work before = .ok (total, after)) (digest : Text)
    : digest ∈ after.keys ↔ digest ∈ before.keys ∨ ∃ blob ∈ blobs, hex blob.sha256 = digest := by
  induction blobs generalizing work before with
  | nil =>
      cases admitted
      simp
  | cons blob rest ih =>
      obtain ⟨_, admitted⟩ := check_ok.mp admitted
      obtain ⟨_, admitted⟩ := check_ok.mp admitted
      rw [ih admitted, Dict.mem_keys_set]
      simp only [List.exists_mem_cons_iff, eq_comm, or_assoc, or_left_comm]

/-- A pool that was opened has its blobs, and nothing is recorded. -/
theorem opened_pool {recordSize cap : Nat}
    (opened : openPool imports blobs recordSize cap = .ok pool)
    : pool.used = [] ∧ pool.graph = []
      ∧ ∀ digest, digest ∈ pool.blobs.keys ↔ ∃ blob ∈ blobs, hex blob.sha256 = digest := by
  unfold openPool at opened
  obtain ⟨_, opened⟩ := check_ok.mp opened
  obtain ⟨_, opened⟩ := check_ok.mp opened
  obtain ⟨_, _, opened⟩ := bind_ok.mp opened
  obtain ⟨_, opened⟩ := check_ok.mp opened
  obtain ⟨_, opened⟩ := check_ok.mp opened
  obtain ⟨⟨work, admitted⟩, ran, same⟩ := bind_ok.mp opened
  cases same
  exact ⟨rfl, rfl, fun digest => by
    simpa [Dict.keys] using mem_admitBlobs ran digest⟩

end

theorem Pool.source_of_reference (pool : Pool) {source target : Text}
    (refers : target ∈ pool.references source)
    : source ∈ pool.graph.keys := by
  unfold Pool.references Dict.getD at refers
  cases found : pool.graph.get? source with
  | none => simp [found] at refers
  | some targets => exact List.mem_map_of_mem (Dict.mem_of_get? found)

/-- The search of a pool ends. -/
theorem Pool.search_ends (pool : Pool)
    : DepthFirst.search pool.references 16 pool.nodes pool.graph.keys = .error .cyclic
      ∨ DepthFirst.search pool.references 16 pool.nodes pool.graph.keys = .error .deep
      ∨ ∃ walk, DepthFirst.search pool.references 16 pool.nodes pool.graph.keys = .ok walk := by
  refine DepthFirst.search_ends (List.nodup_dedup _) (fun node _ child among => ?_)
    fun root listed => List.mem_dedup.mpr (List.mem_append_left _ listed)
  exact List.mem_dedup.mpr (List.mem_append_right _
    (List.mem_flatMap.mpr ⟨node, pool.source_of_reference among, among⟩))

/-- The search of a pool succeeds exactly when its references are acyclic and shallow. -/
theorem Pool.search_ok_iff (pool : Pool)
    : (∃ walk, DepthFirst.search pool.references 16 pool.nodes pool.graph.keys = .ok walk)
      ↔ (∀ node, ¬Relation.TransGen (DepthFirst.Leads pool.references) node node)
        ∧ ∀ path : List Text, path.IsChain (DepthFirst.Leads pool.references)
          → path.length ≤ 17 := by
  constructor
  · rintro ⟨walk, found⟩
    exact (DepthFirst.exists_ranked_iff fun _ _ => pool.source_of_reference).mp
      (DepthFirst.ranked_of_search found)
  · intro shallow
    have rooted (node child : Text) (among : child ∈ pool.references node) : node ∈ pool.nodes :=
      List.mem_dedup.mpr (List.mem_append_left _ (pool.source_of_reference among))
    obtain ⟨rank, ranked⟩ := (DepthFirst.exists_ranked_iff rooted).mpr shallow
    refine DepthFirst.search_of_ranked ranked (List.nodup_dedup _) (fun node _ child among => ?_)
      fun root listed => List.mem_dedup.mpr (List.mem_append_left _ listed)
    exact List.mem_dedup.mpr (List.mem_append_right _
      (List.mem_flatMap.mpr ⟨node, pool.source_of_reference among, among⟩))

end Scanipy.Tools.Worker.Journal
