import Scanipy.Analysis.Fingerprint.Copy
import Scanipy.Analysis.Ordering.Outcome

/-! The normal form of a slice as a function, and that the passes compute it. -/

namespace Scanipy.Analysis

open Library Python
open CanonicalizationBudget (check check_settles)

/-- A node with its local name blanked. -/
def anonymise (node : CPGNode) : CPGNode :=
  { node with operatorOrLiteral := anonymousText node }

/-- A node whose local name is its position among `locals`. -/
def renameLocal (locals : List NodeId) (node : CPGNode) : CPGNode :=
  { node with operatorOrLiteral := localName locals.zipIdx node }

/-- A node with its names reduced to their terminal segments. -/
def normaliseNames (node : CPGNode) : CPGNode :=
  {
    node with
    resolvedFqn := normFqn node.resolvedFqn
    enclosingDeclFqn := normFqn node.enclosingDeclFqn
  }

namespace CPG

/-- The slice with every local name blanked. -/
def anonymous (slice : CPG) : CPG :=
  slice.mapNodes anonymise

/-- The IDENTIFIER nodes of an order. -/
def localsIn (slice : CPG) (order : List NodeId) : List NodeId :=
  order.filter fun id => (slice.nodeAt id).IsIdentifier

/-- The IDENTIFIER nodes in the canonical order of the anonymised slice. -/
def locals (slice : CPG) : List NodeId :=
  slice.localsIn slice.anonymous.certificate.1

/-- The result of the five passes. -/
def normalForm (slice : CPG) : CPG :=
  (slice.mapNodes (renameLocal slice.locals)).mapNodes normaliseNames

/-- The search states that numbering the locals takes. -/
def renameCost (slice : CPG) : Nat :=
  if ∀ node ∈ slice.nodes, ¬node.IsIdentifier then 0 else slice.anonymous.searchSize

end CPG

/-- What the passes return on an allowance, and the allowance left. -/
def normaliseSpec (slice : CPG) : Allowance CPG := fun allowed =>
  if slice.renameCost ≤ allowed then
    (.ok slice.normalForm, allowed - slice.renameCost)
  else
    (.error .budgetExhausted, 0)

theorem keepsId_anonymise : KeepsId anonymise :=
  fun _ => ⟨rfl, rfl⟩

theorem keepsId_renameLocal (locals : List NodeId) : KeepsId (renameLocal locals) :=
  fun _ => ⟨rfl, rfl⟩

theorem keepsId_normaliseNames : KeepsId normaliseNames :=
  fun _ => ⟨rfl, rfl⟩

-- Edited slices are accepted

/-- A slice of an accepted graph: numbered from zero, accepted itself, with names short
enough to be prefixed.
-/
structure CPG.SliceReady (slice : CPG) : Prop where
  numbered : slice.Numbered
  ready : slice.Ready
  names : ∀ node ∈ slice.nodes,
    node.resolvedFqn.utf8.length ≤ maxsize ∧ node.enclosingDeclFqn.utf8.length ≤ maxsize

variable {cpg : CPG}

theorem mapNodes_ready (ready : cpg.Ready) {edit : CPGNode → CPGNode} (keeps : KeepsId edit)
    (fits : ∀ node ∈ cpg.nodes, (edit node).LabelFits ∧ TextFits (edit node).structuralPath)
    : (cpg.mapNodes edit).Ready := by
  have formed := ready.wellFormed
  refine ⟨⟨formed.noExtraFields, formed.modelVersion, ?_, ?_, ?_⟩, ?_, ready.edges⟩
  · intro node member
    obtain ⟨original, listed, rfl⟩ := List.mem_map.mp member
    have originalFormed := formed.nodes original listed
    obtain ⟨sameId, sameFields⟩ := keeps original
    exact ⟨sameFields.trans originalFormed.noExtraFields, sameId ▸ originalFormed.nodeId,
      (fits original listed).1, (fits original listed).2⟩
  · rw [CPG.nodeIds_mapNodes keeps]
    exact formed.distinct
  · rw [CPG.nodeIds_mapNodes keeps]
    exact formed.edges
  · rw [CPG.mapNodes, List.length_map]
    exact ready.nodes

theorem textFits_nil : TextFits [] :=
  ⟨by decide, by decide⟩

theorem textFits_localName {number : Nat} (bound : number < 2 ^ 64)
    : TextFits (py "%local" ++ decimal number) := by
  have ascii : Text.Encodable (py "%local") := by decide
  refine ⟨ascii.append (decimal_encodable number), ?_⟩
  have digits : (decimal number).length ≤ 20 :=
    length_decimal_le (by decide) (lt_of_lt_of_le bound (by decide))
  have short := Text.length_utf8_le (py "%local" ++ decimal number)
  rw [List.length_append] at short
  have head : (py "%local").length = 6 := by decide
  omega

/-- The terminal segment is a part of the name. -/
theorem terminalSegment_suffix (fqn : Text) : terminalSegment fqn <:+ fqn := by
  have ending := List.takeWhile_prefix (l := fqn.reverse) (fun point => [point] ≠ py ".")
  rw [← List.reverse_suffix, List.reverse_reverse] at ending
  exact ending

theorem textFits_normFqn {fqn : Text} (fits : TextFits fqn) (short : fqn.utf8.length ≤ maxsize)
    : TextFits (normFqn fqn) := by
  unfold normFqn
  split
  · exact textFits_nil
  · have ascii : Text.Encodable (py "%pkg.") := by decide
    obtain ⟨front, split⟩ := terminalSegment_suffix fqn
    refine ⟨ascii.append (fits.encodable.of_subset (terminalSegment_suffix fqn).subset), ?_⟩
    have whole := congrArg (fun text => (Text.utf8 text).length) split
    simp only [Text.utf8_append, List.length_append] at whole
    have head : (py "%pkg.").utf8.length = 5 := by decide
    have limit : maxsize < 2 ^ 63 := by decide
    rw [Text.utf8_append, List.length_append, head]
    omega

variable {slice : CPG}

theorem anonymous_ready (ready : slice.Ready) : slice.anonymous.Ready := by
  refine mapNodes_ready ready keepsId_anonymise fun node member => ?_
  have formed := ready.wellFormed.nodes node member
  refine ⟨⟨formed.label.kind, ?_, formed.label.resolvedFqn, formed.label.enclosingDeclFqn⟩,
    formed.structuralPath⟩
  change TextFits (anonymousText node)
  unfold anonymousText
  split
  · exact textFits_nil
  · exact formed.label.operatorOrLiteral

theorem localName_zipIdx (locals : List NodeId) (node : CPGNode)
    : localName locals.zipIdx node
      = if node.nodeId ∈ locals then
          py "%local" ++ decimal (locals.idxOf node.nodeId)
        else
          node.operatorOrLiteral := by
  rw [localName, Dict.get?_zipIdx]
  by_cases listed : node.nodeId ∈ locals
  · rw [if_pos listed, if_pos listed]
    rfl
  · rw [if_neg listed, if_neg listed]

/-- A renamed node is still accepted when fewer than `2 ^ 64` locals are numbered. -/
theorem renameLocal_ready (ready : slice.Ready) {locals : List NodeId}
    (short : locals.length < 2 ^ 64)
    : (slice.mapNodes (renameLocal locals)).Ready := by
  refine mapNodes_ready ready (keepsId_renameLocal locals) fun node member => ?_
  have formed := ready.wellFormed.nodes node member
  refine ⟨⟨formed.label.kind, ?_, formed.label.resolvedFqn, formed.label.enclosingDeclFqn⟩,
    formed.structuralPath⟩
  change TextFits (localName locals.zipIdx node)
  rw [localName_zipIdx]
  split
  next listed =>
    exact textFits_localName (lt_trans (List.idxOf_lt_length_of_mem listed) short)
  next => exact formed.label.operatorOrLiteral

theorem locals_length_lt (ready : slice.Ready) : slice.locals.length < 2 ^ 64 := by
  have complete := (certificate_encodes (anonymous_ready ready)).1
  refine lt_of_le_of_lt (List.length_filter_le _ _) ?_
  rw [complete.length_eq, CPG.anonymous, CPG.nodeIds_mapNodes keepsId_anonymise, CPG.length_nodeIds]
  exact ready.nodes

theorem CPG.SliceReady.normalForm (sliced : slice.SliceReady)
    : slice.normalForm.Ready := by
  have renamed := renameLocal_ready sliced.ready (locals_length_lt sliced.ready)
  refine mapNodes_ready renamed keepsId_normaliseNames fun node member => ?_
  have formed := renamed.wellFormed.nodes node member
  obtain ⟨original, listed, rfl⟩ := List.mem_map.mp member
  obtain ⟨resolved, enclosing⟩ := sliced.names original listed
  exact ⟨⟨formed.label.kind, formed.label.operatorOrLiteral,
    textFits_normFqn formed.label.resolvedFqn resolved,
    textFits_normFqn formed.label.enclosingDeclFqn enclosing⟩, formed.structuralPath⟩

-- The passes compute the normal form

theorem nodeWithId_ok (distinct : cpg.nodeIds.Nodup) {id : NodeId} (known : id ∈ cpg.nodeIds)
    : nodeWithId cpg id = .ok (cpg.nodeAt id) := by
  obtain ⟨member, sameId⟩ := CPG.nodeAt_mem distinct known
  have found : (cpg.nodes.find? fun node => node.nodeId = id).isSome := by
    rw [List.find?_isSome]
    exact ⟨_, member, by simpa using sameId⟩
  obtain ⟨node, hit⟩ := Option.isSome_iff_exists.mp found
  have nodeMember := List.mem_of_find?_eq_some hit
  have nodeId : node.nodeId = id := by simpa using List.find?_some hit
  have same : node = cpg.nodeAt id := by
    rw [← nodeId, CPG.nodeAt_of_mem distinct nodeMember]
  rw [nodeWithId, hit, same]

/-- The counter loop numbers the locals of the order, by list induction. -/
theorem numberLocals_ok (distinct : slice.nodeIds.Nodup) (order : List NodeId)
    (known : order ⊆ slice.nodeIds) (orderDistinct : order.Nodup) (counter : Dict NodeId Nat)
    (next : Nat) (fresh : ∀ id ∈ order, id ∉ counter.keys)
    : numberLocals slice order counter next
      = .ok (counter ++ (slice.localsIn order).zipIdx next) := by
  induction order generalizing counter next with
  | nil => simp [numberLocals, CPG.localsIn]
  | cons id rest ih =>
      obtain ⟨notLater, restDistinct⟩ := List.nodup_cons.mp orderDistinct
      have restKnown : rest ⊆ slice.nodeIds := fun _ later => known (List.mem_cons_of_mem _ later)
      rw [numberLocals, nodeWithId_ok distinct (known List.mem_cons_self), ok_bind]
      by_cases named : (slice.nodeAt id).IsIdentifier
      · rw [if_pos named, Dict.set_of_not_mem (fresh id List.mem_cons_self),
          ih restKnown restDistinct]
        · simp [CPG.localsIn, named, List.zipIdx_cons]
        · intro other later
          rw [Dict.keys, List.map_append, List.mem_append, not_or, List.map_singleton,
            List.mem_singleton]
          refine ⟨fresh other (List.mem_cons_of_mem _ later), ?_⟩
          rintro rfl
          exact notLater later
      · rw [if_neg named, ih restKnown restDistinct _ _ fun other later =>
          fresh other (List.mem_cons_of_mem _ later)]
        simp [CPG.localsIn, named]

/-- Without an IDENTIFIER there is nothing to rename. -/
theorem renameLocal_without (ready : slice.Ready) (none : ∀ node ∈ slice.nodes, ¬node.IsIdentifier)
    : slice.mapNodes (renameLocal slice.locals) = slice := by
  have empty : slice.locals = [] := by
    rw [CPG.locals, CPG.localsIn, List.filter_eq_nil_iff]
    intro id member
    have complete := (certificate_encodes (anonymous_ready ready)).1
    have known := complete.mem_iff.mp member
    rw [CPG.anonymous, CPG.nodeIds_mapNodes keepsId_anonymise] at known
    simpa using none _ (CPG.nodeAt_mem ready.wellFormed.distinct known).1
  have unchanged : slice.nodes.map (renameLocal slice.locals) = slice.nodes := by
    rw [empty]
    exact List.map_id _
  rw [CPG.mapNodes, unchanged]

/-- What pass 1 returns on an allowance, and the allowance left. -/
def renameSpec (slice : CPG) : Allowance CPG := fun allowed =>
  if slice.renameCost ≤ allowed then
    (.ok (slice.mapNodes (renameLocal slice.locals)), allowed - slice.renameCost)
  else
    (.error .budgetExhausted, 0)

/-- Pass 1 on what `canonical_order` decided about the anonymised slice. -/
def renameBy (slice : CPG) (decided : List NodeId × Bytes × FingerprintClass) : Allowance CPG :=
  if decided.2.2 ≠ .strong then
    Metered.raise .budgetExhausted
  else
    pure (slice.mapNodes (renameLocal (slice.localsIn decided.1)))

theorem renameSpec_eq (sha256 : Hash) (some : ¬∀ node ∈ slice.nodes, ¬node.IsIdentifier)
    : renameSpec slice = (orderSpec sha256 slice.anonymous >>= renameBy slice) := by
  have cost : slice.renameCost = slice.anonymous.searchSize := if_neg some
  funext allowed
  rw [renameSpec, cost]
  by_cases enough : slice.anonymous.searchSize ≤ allowed
  · have decided : orderSpec sha256 slice.anonymous allowed = (.ok _, _) := if_pos enough
    rw [if_pos enough, Metered.bind_ok decided]
    rfl
  · have decided : orderSpec sha256 slice.anonymous allowed = (.ok _, _) := if_neg enough
    rw [if_neg enough, Metered.bind_ok decided]
    rfl

/-- Pass 1 renames every local, if the anonymised slice can be ordered. -/
theorem alphaRenameLocals_budgeted (sha256 : Hash) (sliced : slice.SliceReady)
    : Budgeted Eq (alphaRenameLocals sha256 slice) (renameSpec slice) := by
  unfold alphaRenameLocals
  by_cases none : ∀ node ∈ slice.nodes, ¬node.IsIdentifier
  · have spec : renameSpec slice = pure slice := by
      have cost : slice.renameCost = 0 := if_pos none
      funext allowed
      rw [renameSpec, cost, renameLocal_without sliced.ready none, if_pos (Nat.zero_le _)]
      rfl
    rw [if_pos none, spec]
    exact .pure rfl
  · have ready := anonymous_ready sliced.ready
    have sliceIds : slice.anonymous.nodeIds = slice.nodeIds :=
      CPG.nodeIds_mapNodes keepsId_anonymise
    obtain ⟨remap, anonymised⟩ := copy_ok sliced.numbered keepsId_anonymise
    have ordered := (canonicalOrder_budgeted sha256 ready).knowing (orderSpec_complete sha256 ready)
    rw [if_neg none, renameSpec_eq sha256 none]
    change Budgeted Eq (reraise (copyEdges (addCopies anonymise slice.nodes ({}, [])).2 slice.edges
      (addCopies anonymise slice.nodes ({}, [])).1) >>= _) _
    rw [anonymised]
    refine (Settles.reraise _).step (.bind ordered ?_)
    rintro result decided ⟨reports, complete⟩
    rw [reports.fingerprintClass, reports.canonicalOrder, renameBy]
    split
    · exact .raise _
    · rw [sliceIds] at complete
      have inverse : Dict.ofPairs ((addCopies anonymise slice.nodes ({}, [])).2.map fun entry =>
          (entry.2, entry.1)) = slice.nodeIds.map fun id => (id, id) := by
        rw [remap, List.map_map]
        refine Dict.ofPairs_eq_self ?_
        rw [List.map_map]
        exact sliced.numbered.distinct.map fun _ _ same => same
      have order : Metered.collect
          (subscript (Dict.ofPairs ((addCopies anonymise slice.nodes ({}, [])).2.map fun entry =>
            (entry.2, entry.1)))) decided.1
          = .ok decided.1 := by
        rw [inverse, collect_ok (fun id member => ?_), List.map_id]
        rw [subscript, Dict.get?_map fun id => id, if_pos (complete.mem_iff.mp member)]
        rfl
      have counter := numberLocals_ok sliced.numbered.distinct decided.1 complete.subset
        (complete.nodup_iff.mpr sliced.numbered.distinct) [] 0 (by simp [Dict.keys])
      obtain ⟨_, renamed⟩ := copy_ok sliced.numbered
        (keepsId_renameLocal (slice.localsIn decided.1))
      change Budgeted Eq (reraise (Metered.collect
        (subscript (Dict.ofPairs ((addCopies anonymise slice.nodes ({}, [])).2.map fun entry =>
          (entry.2, entry.1)))) decided.1) >>= _) _
      rw [order]
      refine (Settles.reraise _).step ?_
      rw [counter]
      refine (Settles.reraise _).step ?_
      change Settles (reraise (copyEdges
        (addCopies (renameLocal (slice.localsIn decided.1)) slice.nodes ({}, [])).2 slice.edges
        (addCopies (renameLocal (slice.localsIn decided.1)) slice.nodes ({}, [])).1)) _
      rw [renamed]
      exact .reraise _

/-- The five passes compute the normal form, if the locals can be numbered. -/
theorem normalise_budgeted (sha256 : Hash) (sliced : slice.SliceReady)
    : Budgeted Eq (normalise sha256 slice) (normaliseSpec slice) := by
  have spec : normaliseSpec slice
      = (renameSpec slice >>= fun renamed => pure (renamed.mapNodes normaliseNames)) := by
    funext allowed
    by_cases enough : slice.renameCost ≤ allowed
    · have renamed : renameSpec slice allowed = (.ok _, _) := if_pos enough
      rw [Metered.bind_ok renamed, normaliseSpec, if_pos enough]
      rfl
    · have exhausted : renameSpec slice allowed = (.error .budgetExhausted, 0) := if_neg enough
      rw [Metered.bind_error exhausted, normaliseSpec, if_neg enough]
  have known (allowed : Nat) (renamed : CPG) (outcome : (renameSpec slice allowed).1 = .ok renamed)
      : renamed.Numbered := by
    unfold renameSpec at outcome
    split at outcome
    · cases outcome
      exact sliced.numbered.mapNodes (keepsId_renameLocal _)
    · cases outcome
  rw [spec]
  refine check_settles.step (.bind ((alphaRenameLocals_budgeted sha256 sliced).knowing known) ?_)
  rintro renamed _ ⟨rfl, numbered⟩
  obtain ⟨_, normalised⟩ := copy_ok numbered keepsId_normaliseNames
  refine check_settles.step (check_settles.step (check_settles.step (check_settles.step ?_)))
  change Settles (reraise (copyEdges (addCopies normaliseNames renamed.nodes ({}, [])).2
    renamed.edges (addCopies normaliseNames renamed.nodes ({}, [])).1)) _
  rw [normalised]
  exact .reraise _

end Scanipy.Analysis
