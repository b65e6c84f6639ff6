import AgeCypher.JoinQuals
import Mathlib.Data.Sym.Sym2
/-!
# The join quals of a directed path

When every edge of a path is directed, `make_path_join_quals` builds no `OR` and
no `IN`: one `=` for each pair of consecutive members of the path's join-tree
sequence (its edges and its join-tree vertices, in pattern order), and one label
test for each vertex left out of the join tree with a non-default label. The
equalities are compared as unordered pairs of entities (`Sym2`), since the C code
always writes the current edge on the left of `=`.
-/

namespace AgeCypher

/-- A vertex entity whose label has been set, as `transform_cypher_node` leaves it. -/
def IsLabelledVertex (v : TransformEntity) : Prop :=
  ∃ n, v.entity = .node n ∧ n.label.isSome

/-- An edge entity in the join tree whose direction is `LEFT` or `RIGHT`. -/
def IsDirectedEdge (e : TransformEntity) : Prop :=
  e.inJoinTree ∧ ∃ r, e.entity = .rel r ∧ r.dir ≠ .none

/-- The entities an `=` atom relates. -/
def JoinAtom.eqPair? : JoinAtom → Option (TransformEntity × TransformEntity)
  | .eq l r => some (l.entity, r.entity)
  | _ => none

/-- The label an atom tests for. -/
def JoinAtom.labelFilter? : JoinAtom → Option String
  | .labelFilter _ l => some l
  | _ => none

/-- The entities an `=` qual relates. -/
def Qual.eqPair? : Qual → Option (TransformEntity × TransformEntity)
  | .atom a => a.eqPair?
  | _ => none

/-- The label a label-test qual tests for. -/
def Qual.labelFilter? : Qual → Option String
  | .atom a => a.labelFilter?
  | _ => none

/-- An `IN` atom. -/
def JoinAtom.usesIn : JoinAtom → Bool
  | .isIn _ _ => true
  | _ => false

/-- A qual that is a plain `=` or a label test: no `OR`, no `IN`. -/
def Qual.IsEqOrLabelFilter (q : Qual) : Prop :=
  ∃ a, q = .atom a ∧ a.usesIn = false

/-- A vertex left out of the join tree whose label is not the default one. -/
def needsLabelFilter (v : TransformEntity) : Bool :=
  !v.inJoinTree && !isDefaultLabelVertex v.label

/-- Consecutive pairs of the join-tree members of a list, `last` being the
member met before it. -/
def joinTreePairs : Option TransformEntity → List TransformEntity →
    List (TransformEntity × TransformEntity)
  | _, [] => []
  | last, x :: xs =>
    if x.inJoinTree then (last.map fun l => (l, x)).toList ++ joinTreePairs (some x) xs
    else joinTreePairs last xs

theorem joinTreePairs_eq_zip (last : Option TransformEntity) (xs : List TransformEntity) :
    joinTreePairs last xs =
      let seq := last.toList ++ xs.filter (·.inJoinTree)
      seq.zip seq.tail := by
  induction xs generalizing last with
  | nil => cases last <;> rfl
  | cons x xs ih =>
    by_cases hx : x.inJoinTree
    · cases last <;> simp [joinTreePairs, hx, ih, List.filter_cons]
    · cases last <;> simp [joinTreePairs, hx, ih, List.filter_cons]

/-! ## One window -/

theorem joinToEntity_single {x : TransformEntity} (q : Field) (side : JoinSide)
    (hx : IsLabelledVertex x ∨ IsDirectedEdge x) :
    ∃ f : Field, joinToEntity x q side = [.eq q f] ∧ f.entity = x := by
  rcases hx with ⟨n, hn, -⟩ | ⟨-, r, hr, hdir⟩
  · exact ⟨⟨x, .id⟩, by simp [joinToEntity, hn], rfl⟩
  · cases side <;> cases hd : r.dir <;> simp_all [joinToEntity, makeEdgeQuals]

theorem labelFilterQuals_atoms (f : Field) (label : Option String) :
    (labelFilterQuals f label).filterMap JoinAtom.eqPair? = [] ∧
      (labelFilterQuals f label).filterMap JoinAtom.labelFilter? =
        (if isDefaultLabelVertex label then [] else label.toList) ∧
      ∀ a ∈ labelFilterQuals f label, a.usesIn = false := by
  rcases label with _ | l
  · simp [labelFilterQuals, isDefaultLabelVertex]
  · by_cases hl : isDefaultLabelVertex (some l) <;>
      simp [labelFilterQuals, hl, JoinAtom.eqPair?, JoinAtom.labelFilter?, JoinAtom.usesIn]

@[simp] theorem Qual.eqPair?_atom (a : JoinAtom) : (Qual.atom a).eqPair? = a.eqPair? := rfl

@[simp] theorem Qual.labelFilter?_atom (a : JoinAtom) :
    (Qual.atom a).labelFilter? = a.labelFilter? := rfl

/-- `make_directed_edge_join_conditions` between neighbours that are vertices or
directed edges: an `=` for each neighbour in the join tree, then the label tests. -/
theorem makeDirectedEdgeJoinConditions_atoms {prev next : TransformEntity} (q₁ q₂ : Field)
    (pl nl : Option String) (hprev : IsLabelledVertex prev ∨ IsDirectedEdge prev)
    (hnext : IsLabelledVertex next ∨ IsDirectedEdge next) :
    let atoms := makeDirectedEdgeJoinConditions prev next q₁ q₂ pl nl
    atoms.filterMap JoinAtom.eqPair? =
        (if prev.inJoinTree then [(q₁.entity, prev)] else []) ++
          (if next.inJoinTree then [(q₂.entity, next)] else []) ∧
      atoms.filterMap JoinAtom.labelFilter? =
        (if isDefaultLabelVertex pl then [] else pl.toList) ++
          (if isDefaultLabelVertex nl then [] else nl.toList) ∧
      ∀ a ∈ atoms, a.usesIn = false := by
  obtain ⟨f₁, hf₁, rfl⟩ := joinToEntity_single q₁ .left hprev
  obtain ⟨f₂, hf₂, rfl⟩ := joinToEntity_single q₂ .right hnext
  obtain ⟨hp₁, hp₂, hp₃⟩ := labelFilterQuals_atoms q₁ pl
  obtain ⟨hn₁, hn₂, hn₃⟩ := labelFilterQuals_atoms q₂ nl
  simp only [makeDirectedEdgeJoinConditions, List.filterMap_append, List.mem_append]
  refine ⟨?_, ?_, ?_⟩ <;> split_ifs <;>
    simp_all [JoinAtom.eqPair?, JoinAtom.labelFilter?, JoinAtom.usesIn, or_imp, forall_and]

/-- The window of a directed edge `e`: plain `=`s and label tests only; an `=`
with the join-tree member before `e` (the previous node, or across a left-out
node the previous edge) and one with the next node when it is in the join tree;
a label test for the previous node when it is left out, and for the next node
when it is left out and no edge follows. -/
theorem makeJoinConditionForEdge_directed (pe : Option TransformEntity)
    (pn e v : TransformEntity) (ne : Option TransformEntity) (hpe : ∀ x ∈ pe, IsDirectedEdge x)
    (hpn : IsLabelledVertex pn) (he : IsDirectedEdge e) (hv : IsLabelledVertex v) :
    let qs := makeJoinConditionForEdge pe pn e v ne
    (∀ q ∈ qs, q.IsEqOrLabelFilter) ∧
      (qs.filterMap Qual.eqPair?).map Sym2.mk =
        ((if pn.inJoinTree then some pn else pe).map fun l => s(l, e)).toList ++
          (if v.inJoinTree then [s(e, v)] else []) ∧
      qs.filterMap Qual.labelFilter? =
        (if needsLabelFilter pn then pn.label.toList else []) ++
          (if needsLabelFilter v && ne.isNone then v.label.toList else []) := by
  obtain ⟨-, r, hr, hdir⟩ := he
  -- a directed window is the atom list of `make_directed_edge_join_conditions`
  -- with the previous entity and the next node, both fields read from `e`
  obtain ⟨q₁, q₂, hq₁, hq₂, hwin⟩ : ∃ q₁ q₂ : Field, q₁.entity = e ∧ q₂.entity = e ∧
      makeJoinConditionForEdge pe pn e v ne =
        (makeDirectedEdgeJoinConditions (if pn.inJoinTree then pn else pe.getD pn) v q₁ q₂
          (if pn.inJoinTree then none else pn.label)
          (if !v.inJoinTree && ne.isNone then v.label else none)).map .atom := by
    cases hd : r.dir
    · exact absurd hd hdir
    · exact ⟨⟨e, .endId⟩, ⟨e, .startId⟩, rfl, rfl, by simp [makeJoinConditionForEdge, hr, hd]⟩
    · exact ⟨⟨e, .startId⟩, ⟨e, .endId⟩, rfl, rfl, by simp [makeJoinConditionForEdge, hr, hd]⟩
  have hprev : IsLabelledVertex (if pn.inJoinTree then pn else pe.getD pn) ∨
      IsDirectedEdge (if pn.inJoinTree then pn else pe.getD pn) := by
    split_ifs
    · exact .inl hpn
    · cases pe with
      | none => exact .inl hpn
      | some x => exact .inr (hpe x rfl)
  obtain ⟨heq, hlab, hin⟩ := makeDirectedEdgeJoinConditions_atoms q₁ q₂
    (if pn.inJoinTree then none else pn.label)
    (if !v.inJoinTree && ne.isNone then v.label else none) hprev (.inl hv)
  simp only [hwin, List.filterMap_map, Function.comp_def, Qual.eqPair?_atom,
    Qual.labelFilter?_atom, List.mem_map]
  refine ⟨fun q ⟨a, ha, hq⟩ => ⟨a, hq.symm, hin a ha⟩, ?_, ?_⟩
  · rw [heq, hq₁, hq₂]
    cases pe with
    | none => by_cases hp : pn.inJoinTree <;> split_ifs <;> simp_all [Sym2.eq_swap]
    | some x =>
      have hx := (hpe x rfl).1
      by_cases hp : pn.inJoinTree <;> split_ifs <;> simp_all [Sym2.eq_swap]
  · rw [hlab]
    cases hdp : isDefaultLabelVertex pn.label <;> cases hdv : isDefaultLabelVertex v.label <;>
      by_cases hp : pn.inJoinTree <;> by_cases hvj : v.inJoinTree <;> cases ne <;>
      simp [hp, hvj, hdp, hdv, needsLabelFilter]

/-! ## The whole path -/

/-- The steps of a directed path: directed edges in the join tree, and vertices
with their labels set. -/
def DirectedSteps (steps : List (TransformEntity × TransformEntity)) : Prop :=
  ∀ s ∈ steps, IsDirectedEdge s.1 ∧ IsLabelledVertex s.2

theorem flatMap_filter_cons {α β : Type} (p : α → Bool) (f : α → List β) (x : α) (xs : List α) :
    ((x :: xs).filter p).flatMap f = (if p x then f x else []) ++ (xs.filter p).flatMap f := by
  by_cases h : p x <;> simp [List.filter_cons, h]

theorem needsLabelFilter_of_directed {e : TransformEntity} (he : IsDirectedEdge e) :
    needsLabelFilter e = false := by
  simp [needsLabelFilter, he.1]

theorem pathWindows_directed (pe : Option TransformEntity) (pn e v : TransformEntity)
    (steps : List (TransformEntity × TransformEntity)) (hpe : ∀ x ∈ pe, IsDirectedEdge x)
    (hpn : IsLabelledVertex pn) (hsteps : DirectedSteps ((e, v) :: steps)) :
    let qs := pathWindows pe pn ((e, v) :: steps)
    (∀ q ∈ qs, q.IsEqOrLabelFilter) ∧
      (qs.filterMap Qual.eqPair?).map Sym2.mk =
        (joinTreePairs (if pn.inJoinTree then some pn else pe)
          (flattenSteps ((e, v) :: steps))).map Sym2.mk ∧
      qs.filterMap Qual.labelFilter? =
        ((pn :: flattenSteps ((e, v) :: steps)).filter needsLabelFilter).flatMap
          fun x => x.label.toList := by
  induction steps generalizing pe pn e v with
  | nil =>
    obtain ⟨he, hv⟩ := hsteps _ (List.mem_cons_self _ _)
    obtain ⟨h₁, h₂, h₃⟩ := makeJoinConditionForEdge_directed pe pn e v none hpe hpn he hv
    simp only [pathWindows, List.head?_nil, Option.map_none', List.append_nil]
    refine ⟨h₁, ?_, ?_⟩
    · rw [h₂]
      simp only [flattenSteps, joinTreePairs, he.1, if_true]
      cases v.inJoinTree <;> cases (if pn.inJoinTree = true then some pn else pe) <;> simp
    · rw [h₃]
      simp [flatMap_filter_cons, needsLabelFilter_of_directed he, flattenSteps]
  | cons s steps ih =>
    obtain ⟨e', v'⟩ := s
    obtain ⟨he, hv⟩ := hsteps _ (List.mem_cons_self _ _)
    obtain ⟨h₁, h₂, h₃⟩ := makeJoinConditionForEdge_directed pe pn e v (some e') hpe hpn he hv
    obtain ⟨i₁, i₂, i₃⟩ := ih (some e) v e' v' (by simpa using he) hv
      (fun x hx => hsteps x (List.mem_cons_of_mem _ hx))
    simp only [pathWindows, List.head?_cons, Option.map_some'] at i₁ i₂ i₃ ⊢
    refine ⟨fun q hq => ?_, ?_, ?_⟩
    · rcases List.mem_append.mp hq with hq | hq
      exacts [h₁ q hq, i₁ q hq]
    · rw [List.filterMap_append, List.map_append, h₂, i₂]
      simp only [flattenSteps, joinTreePairs, he.1, if_true]
      cases v.inJoinTree <;> cases (if pn.inJoinTree = true then some pn else pe) <;> simp
    · rw [List.filterMap_append, h₃, i₃]
      simp [flatMap_filter_cons, needsLabelFilter_of_directed he, flattenSteps]

theorem length_zip_tail {α : Type} (l : List α) : (l.zip l.tail).length = l.length - 1 := by
  simp [List.length_zip]

/-- With the edges in the join tree, the interior vertices left out and the last
vertex in, the join-tree members after `v₀` are the edges and the last vertex. -/
theorem length_filter_anonymous_interior (e v : TransformEntity)
    (steps : List (TransformEntity × TransformEntity))
    (hedges : ∀ s ∈ (e, v) :: steps, s.1.inJoinTree)
    (hinterior : ∀ x ∈ (v :: steps.map Prod.snd).dropLast, x.inJoinTree = false)
    (hlast : ((v :: steps.map Prod.snd).getLast (by simp)).inJoinTree) :
    ((flattenSteps ((e, v) :: steps)).filter (·.inJoinTree)).length = steps.length + 2 := by
  induction steps generalizing e v with
  | nil =>
    have he := hedges _ (List.mem_cons_self _ _)
    simp_all [flattenSteps]
  | cons s steps ih =>
    obtain ⟨e', v'⟩ := s
    have he := hedges _ (List.mem_cons_self _ _)
    have hv : v.inJoinTree = false := hinterior v (by simp)
    have := ih e' v' (fun x hx => hedges x (List.mem_cons_of_mem _ hx))
      (fun x hx => hinterior x (by simp_all))
      (by simpa using hlast)
    simp only [flattenSteps, List.filter_cons, he, hv, if_true, List.length_cons] at this ⊢
    simpa using this

/-- On every path whose edges are all directed, of any length `k ≥ 1` and with any
choice of join-tree and left-out vertices, the quals of `make_path_join_quals`
hold no `OR` and no `IN`. They are one `=` for each pair of consecutive members of
the join-tree sequence and one label test for each left-out vertex whose label is
not the default, in pattern order. So there are (join-tree members − 1)
equalities: `k + 1` when the interior vertices are left out of the join tree (as
anonymous ones are) and both end vertices are in it. -/
theorem makePathJoinQuals_directed (v₀ e₀ v₁ : TransformEntity)
    (steps : List (TransformEntity × TransformEntity)) (h₀ : IsLabelledVertex v₀)
    (hsteps : DirectedSteps ((e₀, v₁) :: steps)) :
    let entities := v₀ :: e₀ :: v₁ :: flattenSteps steps
    let joinTree := entities.filter (·.inJoinTree)
    ∃ quals, makePathJoinQuals entities = some quals ∧
      (∀ q ∈ quals, q.IsEqOrLabelFilter) ∧
      (quals.filterMap Qual.eqPair?).map Sym2.mk = (joinTree.zip joinTree.tail).map Sym2.mk ∧
      quals.filterMap Qual.labelFilter? =
        (entities.filter needsLabelFilter).flatMap (fun x => x.label.toList) ∧
      (quals.filterMap Qual.eqPair?).length = joinTree.length - 1 ∧
      (v₀.inJoinTree → ((v₁ :: steps.map Prod.snd).getLast (by simp)).inJoinTree →
        (∀ v ∈ (v₁ :: steps.map Prod.snd).dropLast, v.inJoinTree = false) →
        (quals.filterMap Qual.eqPair?).length = steps.length + 2) := by
  intro entities joinTree
  obtain ⟨h₁, h₂, h₃⟩ := pathWindows_directed none v₀ e₀ v₁ steps (by simp) h₀ hsteps
  have hpairs : (joinTree.zip joinTree.tail).map Sym2.mk =
      ((pathWindows none v₀ ((e₀, v₁) :: steps)).filterMap Qual.eqPair?).map Sym2.mk := by
    rw [h₂, joinTreePairs_eq_zip]
    by_cases hv₀ : v₀.inJoinTree <;> simp [joinTree, entities, flattenSteps, List.filter_cons, hv₀]
  have hcount : ((pathWindows none v₀ ((e₀, v₁) :: steps)).filterMap Qual.eqPair?).length =
      joinTree.length - 1 := by
    rw [← List.length_map _ Sym2.mk, ← hpairs, List.length_map, length_zip_tail]
  refine ⟨_, makePathJoinQuals_alternating v₀ e₀ v₁ steps, h₁, hpairs.symm, h₃, hcount, ?_⟩
  intro hv₀ hlast hinterior
  have hlen := length_filter_anonymous_interior e₀ v₁ steps (fun s hs => (hsteps s hs).1.1)
    hinterior hlast
  rw [hcount]
  simp only [joinTree, entities, List.filter_cons, hv₀, if_true, List.length_cons]
  simp only [flattenSteps, List.filter_cons] at hlen
  split_ifs at hlen ⊢ <;> simp_all

/-- `(a)-[r]->(b)` with all three named, as `transform_match_entities` registers it. -/
def namedRightPath : TransformEntity × TransformEntity × TransformEntity :=
  (makeTransformEntity 0 (.node ⟨some "a", some agDefaultLabelVertex, none⟩) (some (.vertex 1)),
    makeTransformEntity 1 (.rel ⟨some "r", some agDefaultLabelEdge, none, false, .right⟩)
      (some (.edge 2)),
    makeTransformEntity 2 (.node ⟨some "b", some agDefaultLabelVertex, none⟩) (some (.vertex 3)))

theorem makePathJoinQuals_directed_namedRightPath :
    IsLabelledVertex namedRightPath.1 ∧
      DirectedSteps [(namedRightPath.2.1, namedRightPath.2.2)] ∧
      ∃ quals, makePathJoinQuals
          [namedRightPath.1, namedRightPath.2.1, namedRightPath.2.2] = some quals ∧
        (∀ q ∈ quals, q.IsEqOrLabelFilter) ∧ (quals.filterMap Qual.eqPair?).length = 2 :=
  have h₀ : IsLabelledVertex namedRightPath.1 := ⟨_, rfl, rfl⟩
  have hs : DirectedSteps [(namedRightPath.2.1, namedRightPath.2.2)] := by
    intro s hs
    simp only [List.mem_singleton] at hs
    subst hs
    exact ⟨⟨rfl, _, rfl, by decide⟩, _, rfl, rfl⟩
  let ⟨quals, hq, hplain, _, _, _, hk⟩ := makePathJoinQuals_directed _ _ _ [] h₀ hs
  ⟨h₀, hs, quals, hq, hplain, hk rfl rfl (by simp)⟩

end AgeCypher
