import Scanipy.Analysis.Ordering.Encoding

/-! Completeness of the canonical encoding: equal bytes are isomorphic listed graphs. -/

namespace Scanipy.Analysis

open Library Python

theorem u64_code : SelfDelimiting {value : Nat | value < 2 ^ 64} (toBytes 8) :=
  toBytes_selfDelimiting 8

theorem framedBytes_code
    : SelfDelimiting {content : Bytes | content.length < 2 ^ 64} framedBytes :=
  SelfDelimiting.framed u64_code

theorem textBytes_code : SelfDelimiting {value : Text | TextFits value} textBytes :=
  SelfDelimiting.comap framedBytes_code (fun _ fits => fits.length)
    Text.utf8_injective.injOn

/-- The label of a node read from its identity fields. -/
def identityBytes (identity : Text × Text × Text × Text) : Bytes :=
  textBytes identity.1
    ++ (textBytes identity.2.1 ++ (textBytes identity.2.2.1 ++ textBytes identity.2.2.2))

theorem labelBytes_eq (node : CPGNode) : labelBytes node = identityBytes node.identity := by
  simp [labelBytes, identityBytes, CPGNode.identity]

/-- Identities whose four fields can be framed. -/
def FramedIdentity : Set (Text × Text × Text × Text) :=
  {value | TextFits value} ×ˢ {value | TextFits value} ×ˢ {value | TextFits value}
    ×ˢ {value | TextFits value}

theorem identityBytes_code : SelfDelimiting FramedIdentity identityBytes :=
  SelfDelimiting.pair textBytes_code
    (SelfDelimiting.pair textBytes_code (SelfDelimiting.pair textBytes_code textBytes_code))

theorem CPGNode.LabelFits.framed {node : CPGNode} (fits : node.LabelFits)
    : node.identity ∈ FramedIdentity :=
  ⟨fits.kind, fits.operatorOrLiteral, fits.resolvedFqn, fits.enclosingDeclFqn⟩

/-- Edge keys whose parts fit their frames. -/
def FramedKey : Set EdgeKey :=
  {key | (ofLex key).1.length < 2 ^ 64 ∧ (ofLex (ofLex key).2).1 < 2 ^ 64
    ∧ (ofLex (ofLex key).2).2 < 2 ^ 64}

theorem framedEdge_code : SelfDelimiting FramedKey framedEdge := by
  intro left right leftFits rightFits rest more same
  unfold framedEdge at same
  simp only [List.append_assoc] at same
  obtain ⟨kinds, afterKind⟩ := framedBytes_code leftFits.1 rightFits.1 same
  obtain ⟨sources, afterSource⟩ := u64_code leftFits.2.1 rightFits.2.1 afterKind
  obtain ⟨targets, tails⟩ := u64_code leftFits.2.2 rightFits.2.2 afterSource
  refine ⟨?_, tails⟩
  exact ofLex.injective (Prod.ext kinds (ofLex.injective (Prod.ext sources targets)))

/-- The map `order[i] -> image[i]`; ids outside `order` stay. -/
def follow (order image : List NodeId) (id : NodeId) : NodeId :=
  (image[order.idxOf id]?).getD id

theorem map_follow {order image : List NodeId} (distinct : order.Nodup)
    (sameLength : order.length = image.length)
    : order.map (follow order image) = image := by
  refine List.ext_getElem (by simpa using sameLength) ?_
  intro index first second
  have inside : index < order.length := by simpa using first
  simp only [List.getElem_map, follow, List.getElem?_eq_getElem second,
    distinct.idxOf_getElem index inside, Option.getD_some]

theorem follow_getElem? {order image : List NodeId} {id : NodeId} (member : id ∈ order)
    (sameLength : order.length = image.length)
    : image[order.idxOf id]? = some (follow order image id) := by
  have inside : order.idxOf id < image.length := by
    rw [← sameLength]
    exact List.idxOf_lt_length_of_mem member
  simp [follow, List.getElem?_eq_getElem inside]

theorem idxOf_follow {order image : List NodeId} (distinct : image.Nodup) {id : NodeId}
    (member : id ∈ order) (sameLength : order.length = image.length)
    : image.idxOf (follow order image id) = order.idxOf id := by
  have found := follow_getElem? member sameLength
  obtain ⟨inside, same⟩ := List.getElem?_eq_some_iff.mp found
  rw [← same]
  exact distinct.idxOf_getElem _ inside

/-- Equal positions after `follow` are equal key lists before sorting. -/
theorem edgeKeys_perm_iff {left right : CPG} {order image : List NodeId}
    (leftFormed : left.WellFormed) (rightFormed : right.WellFormed)
    (complete : order.Perm left.nodeIds) (imageComplete : image.Perm right.nodeIds)
    (sameLength : order.length = image.length)
    : (left.edges.map (edgeKeyIn order)).Perm (right.edges.map (edgeKeyIn image))
      ↔ (left.edges.map fun edge => edge.triple (follow order image)).Perm
          (right.edges.map fun edge => edge.triple id) := by
  have imageDistinct : image.Nodup := imageComplete.nodup_iff.mpr rightFormed.distinct
  -- The key of an edge is a function of its renamed triple, and injectively so on members.
  let position (triple : Text × NodeId × NodeId) : EdgeKey :=
    toLex (triple.1.utf8, toLex (image.idxOf triple.2.1, image.idxOf triple.2.2))
  have leftKeys : left.edges.map (edgeKeyIn order)
      = (left.edges.map fun edge => edge.triple (follow order image)).map position := by
    rw [List.map_map]
    refine List.map_congr_left fun edge member => ?_
    have ends := leftFormed.ends edge member
    simp only [Function.comp, position, CPGEdge.triple, edgeKeyIn,
      idxOf_follow imageDistinct (complete.mem_iff.mpr ends.1) sameLength,
      idxOf_follow imageDistinct (complete.mem_iff.mpr ends.2) sameLength]
  have rightKeys : right.edges.map (edgeKeyIn image)
      = (right.edges.map fun edge => edge.triple id).map position := by
    rw [List.map_map]
    rfl
  constructor
  · intro perm
    -- Reading positions back as members of `image` undoes `position` up to UTF-8.
    let member (index : Nat) : NodeId := (image[index]?).getD 0
    let back (key : EdgeKey) : Bytes × NodeId × NodeId :=
      ((ofLex key).1, member (ofLex (ofLex key).2).1, member (ofLex (ofLex key).2).2)
    have member_idxOf {id : NodeId} (listed : id ∈ image) : member (image.idxOf id) = id := by
      simp [member, List.getElem?_idxOf listed]
    have undone (triples : List (Text × NodeId × NodeId))
        (listed : ∀ triple ∈ triples, triple.2.1 ∈ image ∧ triple.2.2 ∈ image)
        : (triples.map position).map back
          = triples.map (Prod.map Text.utf8 id) := by
      rw [List.map_map]
      refine List.map_congr_left fun triple tripleMember => ?_
      obtain ⟨srcListed, dstListed⟩ := listed triple tripleMember
      change (triple.1.utf8, member (image.idxOf triple.2.1), member (image.idxOf triple.2.2))
        = (triple.1.utf8, triple.2)
      rw [member_idxOf srcListed, member_idxOf dstListed]
    have images : ∀ id ∈ order, follow order image id ∈ image := by
      intro id listed
      exact List.mem_of_getElem? (follow_getElem? listed sameLength)
    rw [leftKeys, rightKeys] at perm
    have renamed := perm.map back
    rw [undone, undone] at renamed
    · exact (List.map_perm_map_iff (Text.utf8_injective.prodMap Function.injective_id)).mp renamed
    · intro triple tripleMember
      obtain ⟨edge, edgeMember, rfl⟩ := List.mem_map.mp tripleMember
      have ends := rightFormed.ends edge edgeMember
      exact ⟨imageComplete.mem_iff.mpr ends.1, imageComplete.mem_iff.mpr ends.2⟩
    · intro triple tripleMember
      obtain ⟨edge, edgeMember, rfl⟩ := List.mem_map.mp tripleMember
      have ends := leftFormed.ends edge edgeMember
      exact ⟨images _ (complete.mem_iff.mpr ends.1), images _ (complete.mem_iff.mpr ends.2)⟩
  · intro perm
    rw [leftKeys, rightKeys]
    exact perm.map position

/-- The identity fields of the node with an id; empty for an id without a node. -/
def CPG.identityAt (cpg : CPG) (id : NodeId) : Text × Text × Text × Text :=
  (cpg.look CPGNode.identity id).getD ([], [], [], [])

theorem CPG.look_identity {cpg : CPG} (formed : cpg.WellFormed) {id : NodeId}
    (member : id ∈ cpg.nodeIds)
    : cpg.look CPGNode.identity id = some (cpg.identityAt id)
      ∧ cpg.identityAt id ∈ FramedIdentity
      ∧ cpg.labelAt id = identityBytes (cpg.identityAt id) := by
  obtain ⟨node, nodeMember, rfl⟩ := List.mem_map.mp member
  have found := CPG.look_of_mem formed.distinct nodeMember CPGNode.identity
  have labelled := CPG.look_of_mem formed.distinct nodeMember labelBytes
  simp only [CPG.identityAt, CPG.labelAt, found, labelled, Option.getD_some]
  exact ⟨trivial, (formed.nodes node nodeMember).label.framed, labelBytes_eq node⟩

theorem flatMap_labelAt {cpg : CPG} (formed : cpg.WellFormed) {order : List NodeId}
    (complete : order.Perm cpg.nodeIds)
    : order.flatMap cpg.labelAt = (order.map cpg.identityAt).flatMap identityBytes := by
  rw [List.flatMap_map, List.flatMap_def, List.flatMap_def]
  refine congrArg List.flatten (List.map_congr_left fun id member => ?_)
  exact (CPG.look_identity formed (complete.mem_iff.mp member)).2.2

theorem edgeKeyIn_framed {cpg : CPG} (formed : cpg.WellFormed) {order : List NodeId}
    (complete : order.Perm cpg.nodeIds) (short : order.length < 2 ^ 64) {key : EdgeKey}
    (member : key ∈ sorted (cpg.edges.map (edgeKeyIn order)))
    : key ∈ FramedKey := by
  obtain ⟨edge, edgeMember, rfl⟩ := List.mem_map.mp (mem_sorted.mp member)
  have edgeFormed := formed.edges edge edgeMember
  have srcIndex := List.idxOf_lt_length_of_mem (complete.mem_iff.mpr edgeFormed.src)
  have dstIndex := List.idxOf_lt_length_of_mem (complete.mem_iff.mpr edgeFormed.dst)
  exact ⟨edgeFormed.kind.length, lt_trans srcIndex short, lt_trans dstIndex short⟩

/-- Encodings that are equal list isomorphic graphs in the same order, and conversely.
Witness: peel header, count, labels and edges off both streams; each is self-delimiting.
-/
theorem encodedGraph_eq_iff {left right : CPG} (leftReady : left.Ready) (rightReady : right.Ready)
    {order image : List NodeId} (complete : order.Perm left.nodeIds)
    (imageComplete : image.Perm right.nodeIds)
    : encodedGraph left order = encodedGraph right image
      ↔ order.length = image.length
        ∧ CPG.Iso CPGNode.identity (follow order image) left right := by
  have leftFormed := leftReady.wellFormed
  have rightFormed := rightReady.wellFormed
  have distinct : order.Nodup := complete.nodup_iff.mpr leftFormed.distinct
  have orderShort : order.length < 2 ^ 64 := by
    simpa [CPG.nodeIds, complete.length_eq] using leftReady.nodes
  have imageShort : image.length < 2 ^ 64 := by
    simpa [CPG.nodeIds, imageComplete.length_eq] using rightReady.nodes
  have leftLook {id : NodeId} (member : id ∈ order) :=
    CPG.look_identity leftFormed (complete.mem_iff.mp member)
  have rightLook {id : NodeId} (member : id ∈ image) :=
    CPG.look_identity rightFormed (imageComplete.mem_iff.mp member)
  constructor
  · intro same
    obtain ⟨sameLength, afterSize⟩ := u64_code orderShort imageShort (List.append_cancel_left same)
    rw [flatMap_labelAt leftFormed complete, flatMap_labelAt rightFormed imageComplete] at afterSize
    obtain ⟨identities, afterLabels⟩ := SelfDelimiting.flatMap_eq identityBytes_code
      (by simpa using sameLength)
      (by
        intro identity member
        obtain ⟨id, listed, rfl⟩ := List.mem_map.mp member
        exact (leftLook listed).2.1)
      (by
        intro identity member
        obtain ⟨id, listed, rfl⟩ := List.mem_map.mp member
        exact (rightLook listed).2.1)
      afterSize
    obtain ⟨sameCount, framed⟩ := u64_code leftReady.edges rightReady.edges afterLabels
    have padded : (sorted (left.edges.map (edgeKeyIn order))).flatMap framedEdge ++ []
        = (sorted (right.edges.map (edgeKeyIn image))).flatMap framedEdge ++ [] := by
      rw [framed]
    obtain ⟨keys, _⟩ := SelfDelimiting.flatMap_eq framedEdge_code (by simpa using sameCount)
      (fun _ => edgeKeyIn_framed leftFormed complete orderShort)
      (fun _ => edgeKeyIn_framed rightFormed imageComplete imageShort) padded
    refine ⟨sameLength, ?_, ?_⟩
    · refine CPG.Iso.nodes_of_look leftFormed.distinct rightFormed.distinct ?_ ?_
      · refine (complete.symm.map _).trans ?_
        rw [map_follow distinct sameLength]
        exact imageComplete
      · intro id member
        have listed := complete.mem_iff.mpr member
        have image := List.mem_of_getElem? (follow_getElem? listed sameLength)
        rw [← map_follow distinct sameLength, List.map_map] at identities
        rw [(leftLook listed).1, (rightLook image).1]
        exact congrArg some (List.map_inj_left.mp identities id listed).symm
    · exact (edgeKeys_perm_iff leftFormed rightFormed complete imageComplete sameLength).mp
        (sorted_eq_sorted.mp keys)
  · rintro ⟨sameLength, iso⟩
    have keys := sorted_eq_sorted.mpr
      ((edgeKeys_perm_iff leftFormed rightFormed complete imageComplete sameLength).mpr iso.edges)
    have labels : order.flatMap left.labelAt = image.flatMap right.labelAt := by
      rw [flatMap_labelAt leftFormed complete, flatMap_labelAt rightFormed imageComplete,
        ← map_follow distinct sameLength, List.map_map]
      refine congrArg (List.flatMap identityBytes) (List.map_congr_left fun id member => ?_)
      have same := iso.look leftFormed.distinct rightFormed.distinct (complete.mem_iff.mp member)
      simp only [Function.comp, CPG.identityAt, same]
    unfold encodedGraph
    rw [sameLength, labels, iso.length_edges, keys]

end Scanipy.Analysis
