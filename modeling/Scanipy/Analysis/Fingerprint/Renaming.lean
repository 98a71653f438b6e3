import Scanipy.Analysis.Fingerprint.Outcome

/-! Isomorphic graphs have isomorphic slices, and the normal form of a slice keeps exactly
what is not a local name or a package prefix.
-/

namespace Scanipy.Analysis

open Library Python

-- Slices along an isomorphism

variable {id : NodeId} {members images : List NodeId}

namespace CPG.Iso

variable {α : Type} {view : CPGNode → α} {rename : NodeId → NodeId} {left right : CPG}

/-- What `view` sees at a node is found again at its image. -/
theorem nodeAt (iso : Iso view rename left right) (leftDistinct : left.nodeIds.Nodup)
    (rightDistinct : right.nodeIds.Nodup) (member : id ∈ left.nodeIds)
    : view (right.nodeAt (rename id)) = view (left.nodeAt id) := by
  have same := iso.look leftDistinct rightDistinct member
  obtain ⟨leftMember, leftId⟩ := CPG.nodeAt_mem leftDistinct member
  obtain ⟨rightMember, rightId⟩ := CPG.nodeAt_mem rightDistinct (iso.mem_nodeIds member)
  have leftLook := CPG.look_of_mem leftDistinct leftMember view
  have rightLook := CPG.look_of_mem rightDistinct rightMember view
  rw [leftId] at leftLook
  rw [rightId] at rightLook
  rw [leftLook, rightLook] at same
  exact Option.some.inj same

/-- A bijection of the ids that sees the same at every image is a bijection of the nodes. -/
theorem nodes_of_nodeAt (leftDistinct : left.nodeIds.Nodup) (rightDistinct : right.nodeIds.Nodup)
    (ids : (left.nodeIds.map rename).Perm right.nodeIds)
    (same : ∀ id ∈ left.nodeIds, view (right.nodeAt (rename id)) = view (left.nodeAt id))
    : (left.nodes.map fun node => (rename node.nodeId, view node)).Perm
        (right.nodes.map fun node => (node.nodeId, view node)) := by
  refine nodes_of_look leftDistinct rightDistinct ids fun id member => ?_
  have image : rename id ∈ right.nodeIds := ids.mem_iff.mp (List.mem_map_of_mem member)
  obtain ⟨leftMember, leftId⟩ := CPG.nodeAt_mem leftDistinct member
  obtain ⟨rightMember, rightId⟩ := CPG.nodeAt_mem rightDistinct image
  have leftLook := CPG.look_of_mem leftDistinct leftMember view
  have rightLook := CPG.look_of_mem rightDistinct rightMember view
  rw [leftId] at leftLook
  rw [rightId] at rightLook
  rw [leftLook, rightLook, same id member]

theorem flowsInto (iso : Iso view rename left right) {src dst : NodeId}
    (flows : src ∈ left.flowsInto dst)
    : rename src ∈ right.flowsInto (rename dst) := by
  obtain ⟨edge, listed, rfl⟩ := List.mem_map.mp flows
  obtain ⟨member, kind, rfl⟩ : edge ∈ left.edges ∧ edge.kind ∈ dataflowKinds ∧ edge.dst = dst := by
    simpa using listed
  obtain ⟨image, imageMember, same⟩ := List.mem_map.mp
    (iso.edges.mem_iff.mp (List.mem_map_of_mem member))
  obtain ⟨sameKind, sameSrc, sameDst⟩
      : image.kind = edge.kind ∧ image.src = rename edge.src ∧ image.dst = rename edge.dst := by
    simpa [CPGEdge.triple] using same
  refine List.mem_map.mpr ⟨image, ?_, sameSrc⟩
  simpa [sameKind, sameDst, imageMember] using kind

/-- A dataflow path is carried to one of the images. -/
theorem onSlice (iso : Iso view rename left right) {witness : List NodeId} {sink : NodeId}
    (sliced : left.OnSlice witness sink id)
    : right.OnSlice (witness.map rename) (rename sink) (rename id) := by
  rcases sliced with seed | reaches
  · exact .inl (List.mem_map_of_mem seed)
  · exact .inr (reaches.lift rename fun _ _ flows => iso.flowsInto flows)

/-- The nodes of the slice are carried onto those of the mapped witness's slice. -/
theorem sliceMembers (iso : Iso view rename left right) (leftFormed : left.WellFormed)
    (rightFormed : right.WellFormed) {witness : List NodeId}
    (sliced : left.SliceMembers witness members)
    (imageSliced : right.SliceMembers (witness.map rename) images)
    : (members.map rename).Perm images := by
  obtain ⟨sink, last, onSlice⟩ := sliced.onSlice
  obtain ⟨image, imageLast, imageOnSlice⟩ := imageSliced.onSlice
  obtain rfl : rename sink = image := by
    rw [List.getLast?_map, last] at imageLast
    exact Option.some.inj imageLast
  have injective := iso.injOn rightFormed.distinct
  obtain ⟨back, returning, undo⟩ := iso.symm leftFormed.ends rightFormed.distinct
  have mappedDistinct : (members.map rename).Nodup :=
    sliced.distinct.map_on fun first firstMember second secondMember same =>
      injective (sliced.known firstMember) (sliced.known secondMember) same
  have sinkKnown : sink ∈ left.nodeIds :=
    sliced.known (sliced.seeds (List.mem_of_getLast? last))
  have witnessBack : (witness.map rename).map back = witness := by
    rw [List.map_map]
    refine (List.map_congr_left fun id seed => ?_).trans (List.map_id witness)
    exact undo id (sliced.known (sliced.seeds seed))
  rw [List.perm_ext_iff_of_nodup mappedDistinct imageSliced.distinct]
  intro other
  rw [imageOnSlice]
  constructor
  · intro member
    obtain ⟨id, listed, rfl⟩ := List.mem_map.mp member
    exact iso.onSlice ((onSlice id).mp listed)
  · intro reached
    obtain ⟨id, known, rfl⟩ := List.mem_map.mp
      (iso.nodeIds.mem_iff.mpr (imageSliced.known ((imageOnSlice other).mpr reached)))
    have carried := returning.onSlice reached
    rw [witnessBack, undo sink sinkKnown, undo id known] at carried
    exact List.mem_map_of_mem ((onSlice id).mpr carried)

end CPG.Iso

/-- The renaming of positions in `members` that follows a renaming of the listed ids. -/
def renumbering (rename : NodeId → NodeId) (members images : List NodeId) (index : NodeId)
    : NodeId :=
  images.idxOf (rename ((members[index.toNat]?).getD 0))

theorem renumbering_idxOf (rename : NodeId → NodeId) (member : id ∈ members)
    : renumbering rename members images (members.idxOf id) = images.idxOf (rename id) := by
  rw [renumbering, Int.toNat_natCast, List.getElem?_idxOf member, Option.getD_some]

variable {rename : NodeId → NodeId} {left right : CPG}

/-- Extracts on corresponding nodes are isomorphic. -/
theorem CPG.Iso.extract {α : Type} {view : CPGNode → α} (iso : CPG.Iso view rename left right)
    (leftFormed : left.WellFormed) (rightFormed : right.WellFormed)
    (unnumbered : ∀ (node : CPGNode) (id : NodeId), view (node.renumber id) = view node)
    (known : members ⊆ left.nodeIds) (carried : (members.map rename).Perm images)
    : CPG.Iso view (renumbering rename members images) (left.extract members)
        (right.extract images) := by
  have listed {id : NodeId} (member : id ∈ left.nodeIds) : rename id ∈ images ↔ id ∈ members := by
    rw [← carried.mem_iff]
    constructor
    · intro image
      obtain ⟨other, otherMember, same⟩ := List.mem_map.mp image
      rwa [← iso.injOn rightFormed.distinct (known otherMember) member same]
    · exact List.mem_map_of_mem
  constructor
  · have leftNodes : ((left.extract members).nodes.map fun node =>
          (renumbering rename members images node.nodeId, view node))
        = (members.map rename).map fun id => ((images.idxOf id : Int), view (right.nodeAt id)) := by
      rw [CPG.extract, List.map_map, List.map_map]
      refine List.map_congr_left fun id member => ?_
      rw [Function.comp, Function.comp, unnumbered,
        iso.nodeAt leftFormed.distinct rightFormed.distinct (known member)]
      exact Prod.ext (renumbering_idxOf rename member) rfl
    have rightNodes : ((right.extract images).nodes.map fun node => (node.nodeId, view node))
        = images.map fun id => ((images.idxOf id : Int), view (right.nodeAt id)) := by
      rw [CPG.extract, List.map_map]
      refine List.map_congr_left fun id _ => ?_
      rw [Function.comp, unnumbered]
      rfl
    rw [leftNodes, rightNodes]
    exact carried.map _
  · have edges := iso.edges_filter (fun src dst => decide (src ∈ members ∧ dst ∈ members))
      (fun src dst => decide (src ∈ images ∧ dst ∈ images))
      (fun kind src dst => (kind, (images.idxOf src : Int), (images.idxOf dst : Int))) (by
        intro edge member
        obtain ⟨srcKnown, dstKnown⟩ := leftFormed.ends edge member
        simp only [listed srcKnown, listed dstKnown])
    rw [CPG.extract, CPG.extract, List.map_map, List.map_map]
    refine List.Perm.trans (List.Perm.of_eq (List.map_congr_left ?_)) edges.symm
    intro edge member
    obtain ⟨_, srcMember, dstMember⟩
        : edge ∈ left.edges ∧ edge.src ∈ members ∧ edge.dst ∈ members := by
      simpa using member
    simp only [Function.comp, CPGEdge.triple, renumbering_idxOf rename srcMember,
      renumbering_idxOf rename dstMember]

-- What the normal form keeps

/-- A node without its local name. -/
def CPGNode.nameless (node : CPGNode) : Text × Text × Text × Text :=
  (node.kind, anonymousText node, node.resolvedFqn, node.enclosingDeclFqn)

/-- The terminal segment of a name; nothing for the empty name. -/
def shortName (fqn : Text) : Option Text :=
  if fqn = [] then none else some (terminalSegment fqn)

/-- A node without its local name and its package prefixes. -/
def CPGNode.essence (node : CPGNode) : Text × Text × Option Text × Option Text :=
  (node.kind, anonymousText node, shortName node.resolvedFqn, shortName node.enclosingDeclFqn)

theorem normFqn_eq {fqn other : Text}
    : normFqn fqn = normFqn other ↔ shortName fqn = shortName other := by
  have visible : py "%pkg." ≠ [] := by decide
  unfold normFqn shortName
  by_cases empty : fqn = [] <;> by_cases otherEmpty : other = [] <;>
    simp [empty, otherEmpty, visible]

/-- Isomorphisms of edited graphs are those of the originals under the edited view. -/
theorem mapNodes_iso_iff {α : Type} {view seen : CPGNode → α} {edit other : CPGNode → CPGNode}
    (keeps : KeepsId edit) (otherKeeps : KeepsId other)
    (same : ∀ node ∈ left.nodes, view (edit node) = seen node)
    (otherSame : ∀ node ∈ right.nodes, view (other node) = seen node)
    : CPG.Iso view rename (left.mapNodes edit) (right.mapNodes other)
      ↔ CPG.Iso seen rename left right := by
  have leftNodes : ((left.mapNodes edit).nodes.map fun node => (rename node.nodeId, view node))
      = left.nodes.map fun node => (rename node.nodeId, seen node) := by
    rw [CPG.mapNodes, List.map_map]
    refine List.map_congr_left fun node member => ?_
    rw [Function.comp, (keeps node).1, same node member]
  have rightNodes : ((right.mapNodes other).nodes.map fun node => (node.nodeId, view node))
      = right.nodes.map fun node => (node.nodeId, seen node) := by
    rw [CPG.mapNodes, List.map_map]
    refine List.map_congr_left fun node member => ?_
    rw [Function.comp, (otherKeeps node).1, otherSame node member]
  constructor
  · intro iso
    have nodes := iso.nodes
    rw [leftNodes, rightNodes] at nodes
    exact ⟨nodes, iso.edges⟩
  · intro iso
    have nodes := iso.nodes
    rw [← leftNodes, ← rightNodes] at nodes
    exact ⟨nodes, iso.edges⟩

theorem anonymous_iso_iff
    : CPG.Iso CPGNode.identity rename left.anonymous right.anonymous
      ↔ CPG.Iso CPGNode.nameless rename left right :=
  mapNodes_iso_iff keepsId_anonymise keepsId_anonymise (fun _ _ => rfl) (fun _ _ => rfl)

variable {slice : CPG}

/-- The locals are the IDENTIFIER nodes, each once. -/
theorem mem_locals (ready : slice.Ready)
    : id ∈ slice.locals ↔ id ∈ slice.nodeIds ∧ (slice.nodeAt id).IsIdentifier := by
  have complete := (certificate_encodes (anonymous_ready ready)).1
  rw [CPG.anonymous, CPG.nodeIds_mapNodes keepsId_anonymise] at complete
  rw [CPG.locals, CPG.localsIn, List.mem_filter, decide_eq_true_eq]
  exact and_congr_left fun _ => complete.mem_iff

theorem locals_nodup (ready : slice.Ready) : slice.locals.Nodup := by
  have anonymous := anonymous_ready ready
  have complete := (certificate_encodes anonymous).1
  exact (complete.nodup_iff.mpr anonymous.wellFormed.distinct).filter _

/-- The identity of a node of the normal form. -/
theorem normalForm_identity (ready : slice.Ready) (known : id ∈ slice.nodeIds)
    : (slice.normalForm.nodeAt id).identity
      = ((slice.nodeAt id).kind,
          if id ∈ slice.locals then
            py "%local" ++ decimal (slice.locals.idxOf id)
          else
            anonymousText (slice.nodeAt id),
          normFqn (slice.nodeAt id).resolvedFqn,
          normFqn (slice.nodeAt id).enclosingDeclFqn) := by
  have distinct := ready.wellFormed.distinct
  have renamedIds : (slice.mapNodes (renameLocal slice.locals)).nodeIds = slice.nodeIds :=
    CPG.nodeIds_mapNodes (keepsId_renameLocal _)
  rw [CPG.normalForm, CPG.nodeAt_mapNodes (by rwa [renamedIds]) keepsId_normaliseNames
    (by rwa [renamedIds]), CPG.nodeAt_mapNodes distinct (keepsId_renameLocal _) known]
  have named : localName slice.locals.zipIdx (slice.nodeAt id)
      = if id ∈ slice.locals then
          py "%local" ++ decimal (slice.locals.idxOf id)
        else
          anonymousText (slice.nodeAt id) := by
    rw [localName_zipIdx, (CPG.nodeAt_mem distinct known).2]
    by_cases listed : id ∈ slice.locals
    · rw [if_pos listed, if_pos listed]
    · have plain : ¬(slice.nodeAt id).IsIdentifier := fun named =>
        listed ((mem_locals ready).mpr ⟨known, named⟩)
      rw [if_neg listed, if_neg listed, anonymousText, if_neg plain]
  rw [← named]
  rfl

theorem nodeIds_normalForm (slice : CPG) : slice.normalForm.nodeIds = slice.nodeIds := by
  rw [CPG.normalForm, CPG.nodeIds_mapNodes keepsId_normaliseNames,
    CPG.nodeIds_mapNodes (keepsId_renameLocal _)]

/-- An injective map of a list moves no positions. -/
theorem idxOf_of_map_eq {items : List NodeId} (mapped : items.map rename = images)
    (distinct : images.Nodup) (member : id ∈ items)
    : images.idxOf (rename id) = items.idxOf id := by
  have inside := List.idxOf_lt_length_of_mem member
  subst mapped
  have hit : (items.map rename)[items.idxOf id]? = some (rename id) := by
    rw [List.getElem?_map, List.getElem?_idxOf member, Option.map_some]
  obtain ⟨bound, same⟩ := List.getElem?_eq_some_iff.mp hit
  rw [← same]
  exact distinct.idxOf_getElem _ bound

section NormalForms

variable {left right : CPG} (leftReady : left.Ready) (rightReady : right.Ready)
  {rename : NodeId → NodeId}

include leftReady rightReady

/-- The same essence is the same kind of node, in the same slot of the locals or not. -/
theorem CPG.Iso.locals_iff (iso : CPG.Iso CPGNode.essence rename left right)
    (known : id ∈ left.nodeIds)
    : rename id ∈ right.locals ↔ id ∈ left.locals := by
  have same := iso.nodeAt leftReady.wellFormed.distinct rightReady.wellFormed.distinct known
  have kinds : (right.nodeAt (rename id)).kind = (left.nodeAt id).kind := congrArg Prod.fst same
  rw [mem_locals rightReady, mem_locals leftReady, CPGNode.IsIdentifier, CPGNode.IsIdentifier, kinds]
  exact and_congr_left fun _ => ⟨fun _ => known, fun _ => iso.mem_nodeIds known⟩

/-- An isomorphism of normal forms keeps essences. -/
theorem CPG.Iso.essence_of_normalForm
    (iso : CPG.Iso CPGNode.identity rename left.normalForm right.normalForm)
    : CPG.Iso CPGNode.essence rename left right := by
  have leftDistinct := leftReady.wellFormed.distinct
  have rightDistinct := rightReady.wellFormed.distinct
  have ids := iso.nodeIds
  rw [nodeIds_normalForm, nodeIds_normalForm] at ids
  refine ⟨CPG.Iso.nodes_of_nodeAt leftDistinct rightDistinct ids fun id known => ?_, iso.edges⟩
  have image : rename id ∈ right.nodeIds := ids.mem_iff.mp (List.mem_map_of_mem known)
  have same := iso.nodeAt (by rwa [nodeIds_normalForm]) (by rwa [nodeIds_normalForm])
    (by rwa [nodeIds_normalForm])
  rw [normalForm_identity rightReady image, normalForm_identity leftReady known] at same
  obtain ⟨kinds, texts, resolved, enclosing⟩ := by simpa only [Prod.mk.injEq] using same
  have sorts : (right.nodeAt (rename id)).IsIdentifier ↔ (left.nodeAt id).IsIdentifier := by
    rw [CPGNode.IsIdentifier, CPGNode.IsIdentifier, kinds]
  have anonymous : anonymousText (right.nodeAt (rename id)) = anonymousText (left.nodeAt id) := by
    by_cases named : (left.nodeAt id).IsIdentifier
    · rw [anonymousText, anonymousText, if_pos named, if_pos (sorts.mpr named)]
    · rwa [if_neg fun listed => named (sorts.mp ((mem_locals rightReady).mp listed).2),
        if_neg fun listed => named ((mem_locals leftReady).mp listed).2] at texts
  rw [CPGNode.essence, CPGNode.essence, kinds, anonymous, normFqn_eq.mp resolved,
    normFqn_eq.mp enclosing]

/-- Normal forms are isomorphic along a renaming exactly when it keeps essences and carries
the numbering of the locals.
Witness: a local's number can be read off its new text, and nothing else depends on names.
-/
theorem normalForm_iso_iff
    : CPG.Iso CPGNode.identity rename left.normalForm right.normalForm
      ↔ CPG.Iso CPGNode.essence rename left right ∧ left.locals.map rename = right.locals := by
  have leftDistinct := leftReady.wellFormed.distinct
  have rightDistinct := rightReady.wellFormed.distinct
  have rightLocals := locals_nodup rightReady
  constructor
  · intro iso
    have essences := iso.essence_of_normalForm leftReady rightReady
    have same {id : NodeId} (known : id ∈ left.nodeIds) :=
      iso.nodeAt (by rwa [nodeIds_normalForm]) (by rwa [nodeIds_normalForm])
        ((nodeIds_normalForm left).symm ▸ known)
    have positions {id : NodeId} (listed : id ∈ left.locals)
        : right.locals.idxOf (rename id) = left.locals.idxOf id := by
      have known := ((mem_locals leftReady).mp listed).1
      have image := (essences.locals_iff leftReady rightReady known).mpr listed
      have texts := congrArg (fun identity => identity.2.1) (same known)
      rw [normalForm_identity rightReady (essences.mem_nodeIds known),
        normalForm_identity leftReady known] at texts
      dsimp only at texts
      rw [if_pos image, if_pos listed] at texts
      exact decimal_injective (List.append_cancel_left texts)
    refine ⟨essences, ?_⟩
    have members : (left.locals.map rename).Perm right.locals := by
      rw [List.perm_ext_iff_of_nodup ?_ rightLocals]
      · intro other
        constructor
        · intro member
          obtain ⟨id, listed, rfl⟩ := List.mem_map.mp member
          exact (essences.locals_iff leftReady rightReady ((mem_locals leftReady).mp listed).1).mpr
            listed
        · intro listed
          obtain ⟨id, known, rfl⟩ := List.mem_map.mp
            (essences.nodeIds.mem_iff.mpr ((mem_locals rightReady).mp listed).1)
          exact List.mem_map_of_mem
            ((essences.locals_iff leftReady rightReady known).mp listed)
      · refine (locals_nodup leftReady).map_on fun first firstListed second secondListed same => ?_
        exact essences.injOn rightDistinct ((mem_locals leftReady).mp firstListed).1
          ((mem_locals leftReady).mp secondListed).1 same
    refine List.ext_getElem members.length_eq fun index inside other => ?_
    have position : index < left.locals.length := by simpa using inside
    have listed := List.getElem_mem position
    have found := positions listed
    rw [(locals_nodup leftReady).idxOf_getElem index position] at found
    have image := (essences.locals_iff leftReady rightReady
      ((mem_locals leftReady).mp listed).1).mpr listed
    have hit := List.getElem?_idxOf image
    rw [found, List.getElem?_eq_getElem other] at hit
    rw [List.getElem_map]
    exact (Option.some.inj hit).symm
  · rintro ⟨essences, numbered⟩
    have ids := essences.nodeIds
    rw [← nodeIds_normalForm left, ← nodeIds_normalForm right] at ids
    refine ⟨CPG.Iso.nodes_of_nodeAt (by rwa [nodeIds_normalForm]) (by rwa [nodeIds_normalForm])
      ids fun id member => ?_, essences.edges⟩
    have known : id ∈ left.nodeIds := nodeIds_normalForm left ▸ member
    have same := essences.nodeAt leftDistinct rightDistinct known
    obtain ⟨kinds, texts, resolved, enclosing⟩
        : (right.nodeAt (rename id)).kind = (left.nodeAt id).kind
          ∧ anonymousText (right.nodeAt (rename id)) = anonymousText (left.nodeAt id)
          ∧ shortName (right.nodeAt (rename id)).resolvedFqn
            = shortName (left.nodeAt id).resolvedFqn
          ∧ shortName (right.nodeAt (rename id)).enclosingDeclFqn
            = shortName (left.nodeAt id).enclosingDeclFqn := by
      simpa only [CPGNode.essence, Prod.mk.injEq] using same
    rw [normalForm_identity rightReady (essences.mem_nodeIds known),
      normalForm_identity leftReady known, kinds, normFqn_eq.mpr resolved,
      normFqn_eq.mpr enclosing, texts]
    by_cases listed : id ∈ left.locals
    · rw [if_pos ((essences.locals_iff leftReady rightReady known).mpr listed), if_pos listed,
        idxOf_of_map_eq numbered rightLocals listed]
    · rw [if_neg fun image => listed ((essences.locals_iff leftReady rightReady known).mp image),
        if_neg listed]

end NormalForms

end Scanipy.Analysis
