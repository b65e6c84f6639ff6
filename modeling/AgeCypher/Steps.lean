import AgeCypher.Clause
import AgeCypher.Logic
/-!
# What each part of a clause transform does to the target list and the registry

A clause query's target list is built left to right: every entry is appended
with the next value of `p_next_resno`, and entries already there keep their
number, name and junk flag (`get_target_entry_resno` and the sort helpers only
rewrite an entry's expression or sort reference). The registry only grows, by
entities allocated in order.

`ClauseStep` records both for one run of a part of a transform; each function
of the pattern transforms gets one lemma stating it, proved from the lemmas of
the functions it calls.
-/

namespace AgeCypher

/-- The number, name and junk flag of a target entry. -/
def TargetEntry.shape (te : TargetEntry) : Nat × Option String × Bool :=
  (te.resno, te.resname, te.resjunk)

/-- From `(tl, s)` to `(tl', s')`: the entries of `tl` keep their shape, and
entries follow, numbered on from the resno counter of `s`, all with junk flag
`junk` and named when visible; the counter of `s'` is past them. -/
def AppendsEntries (junk : Bool) (tl : List TargetEntry) (s : CypherParseState)
    (tl' : List TargetEntry) (s' : CypherParseState) : Prop :=
  ∃ new : List TargetEntry, tl'.map TargetEntry.shape = (tl ++ new).map TargetEntry.shape ∧
    new.map (·.resno) = List.range' s.pNextResno new.length ∧
    (∀ te ∈ new, te.resjunk = junk ∧ (te.resjunk = false → te.resname.isSome)) ∧
    s'.pNextResno = s.pNextResno + new.length

/-- From `s` to `s'` the registry grew by entities satisfying `p`, allocated in
order: their identities are the counter values consumed. -/
def RegistryGrows (p : TransformEntity → Prop) (s s' : CypherParseState) : Prop :=
  ∃ new : List TransformEntity, s'.entities = s.entities ++ new ∧
    s.global.nextEntityId ≤ s'.global.nextEntityId ∧
    new.map (·.id) =
      List.range' s.global.nextEntityId (s'.global.nextEntityId - s.global.nextEntityId) ∧
    ∀ e ∈ new, p e

/-- One run of a part of a clause transform: entries appended to the target
list, entities to the registry. -/
structure ClauseStep (junk : Bool) (p : TransformEntity → Prop) (tl : List TargetEntry)
    (s : CypherParseState) (tl' : List TargetEntry) (s' : CypherParseState) : Prop where
  appends : AppendsEntries junk tl s tl' s'
  registry : RegistryGrows p s s'

/-- The counters a clause step is about are untouched. -/
structure SameCounters (s s' : CypherParseState) : Prop where
  resno : s'.pNextResno = s.pNextResno
  entities : s'.entities = s.entities
  entityId : s'.global.nextEntityId = s.global.nextEntityId

/-- Transforms that move the counter and nothing else of the parse state. -/
def resnoOnly : StateOrder where
  rel s s' := s' = { s with pNextResno := s'.pNextResno }
  refl _ := rfl
  trans h₁ h₂ := by rw [h₂, h₁]

section Relations

variable {junk : Bool} {p q : TransformEntity → Prop} {tl tl₁ tl₂ : List TargetEntry}
  {s s₁ s₂ : CypherParseState}

theorem SameCounters.refl (s : CypherParseState) : SameCounters s s := ⟨rfl, rfl, rfl⟩

theorem SameCounters.trans (h₁ : SameCounters s s₁) (h₂ : SameCounters s₁ s₂) :
    SameCounters s s₂ :=
  ⟨h₂.resno.trans h₁.resno, h₂.entities.trans h₁.entities, h₂.entityId.trans h₁.entityId⟩

/-- The entries keep their shape and nothing is appended. -/
theorem AppendsEntries.of_shape (hshape : tl₁.map TargetEntry.shape = tl.map TargetEntry.shape)
    (h : s₁.pNextResno = s.pNextResno) : AppendsEntries junk tl s tl₁ s₁ :=
  ⟨[], by simp [hshape], rfl, by simp, by simpa using h⟩

theorem AppendsEntries.of_resno (h : s₁.pNextResno = s.pNextResno) :
    AppendsEntries junk tl s tl s₁ :=
  .of_shape rfl h

theorem AppendsEntries.trans (h₁ : AppendsEntries junk tl s tl₁ s₁)
    (h₂ : AppendsEntries junk tl₁ s₁ tl₂ s₂) : AppendsEntries junk tl s tl₂ s₂ := by
  obtain ⟨new₁, hs₁, hr₁, hj₁, hc₁⟩ := h₁
  obtain ⟨new₂, hs₂, hr₂, hj₂, hc₂⟩ := h₂
  refine ⟨new₁ ++ new₂, ?_, ?_, ?_, ?_⟩
  · simp only [List.map_append] at hs₁ hs₂ ⊢
    rw [hs₂, hs₁, List.append_assoc]
  · rw [List.map_append, hr₁, hr₂, hc₁, List.length_append, List.range'_append_1, Nat.add_comm]
  · intro te hte
    rcases List.mem_append.1 hte with h | h
    · exact hj₁ te h
    · exact hj₂ te h
  · rw [hc₂, hc₁, List.length_append, Nat.add_assoc]

/-- One entry appended with the counter's value. -/
theorem AppendsEntries.single {te : TargetEntry} (hno : te.resno = s.pNextResno)
    (hjunk : te.resjunk = junk) (hname : te.resjunk = false → te.resname.isSome)
    (hc : s₁.pNextResno = s.pNextResno + 1) : AppendsEntries junk tl s (tl ++ [te]) s₁ :=
  ⟨[te], rfl, by simp [hno], by simpa using ⟨hjunk, hname⟩, hc⟩

theorem RegistryGrows.of_eq (he : s₁.entities = s.entities)
    (hid : s₁.global.nextEntityId = s.global.nextEntityId) : RegistryGrows p s s₁ :=
  ⟨[], by simp [he], by simp [hid], by simp [hid], by simp⟩

theorem RegistryGrows.of_same (h : SameCounters s s₁) : RegistryGrows p s s₁ :=
  .of_eq h.entities h.entityId

theorem RegistryGrows.trans (h₁ : RegistryGrows p s s₁) (h₂ : RegistryGrows p s₁ s₂) :
    RegistryGrows p s s₂ := by
  obtain ⟨new₁, he₁, hle₁, hid₁, hp₁⟩ := h₁
  obtain ⟨new₂, he₂, hle₂, hid₂, hp₂⟩ := h₂
  refine ⟨new₁ ++ new₂, by rw [he₂, he₁, List.append_assoc], Nat.le_trans hle₁ hle₂, ?_, ?_⟩
  · have hsum : s₂.global.nextEntityId - s.global.nextEntityId =
        (s₂.global.nextEntityId - s₁.global.nextEntityId) +
          (s₁.global.nextEntityId - s.global.nextEntityId) := by omega
    rw [List.map_append, hid₁, hid₂, hsum, ← List.range'_append_1, Nat.add_sub_cancel' hle₁]
  · intro e he
    rcases List.mem_append.1 he with h | h
    · exact hp₁ e h
    · exact hp₂ e h

theorem RegistryGrows.mono (h : RegistryGrows p s s₁) (hpq : ∀ e, p e → q e) :
    RegistryGrows q s s₁ := by
  obtain ⟨new, he, hle, hid, hp⟩ := h
  exact ⟨new, he, hle, hid, fun e hmem => hpq e (hp e hmem)⟩

theorem ClauseStep.of_same (h : SameCounters s s₁) : ClauseStep junk p tl s tl s₁ :=
  ⟨.of_resno h.resno, .of_same h⟩

theorem ClauseStep.trans (h₁ : ClauseStep junk p tl s tl₁ s₁) (h₂ : ClauseStep junk p tl₁ s₁ tl₂ s₂) :
    ClauseStep junk p tl s tl₂ s₂ :=
  ⟨h₁.appends.trans h₂.appends, h₁.registry.trans h₂.registry⟩

end Relations

/-! ## Lookups

The label cache, the namespace and the range table are only read while an
element or a qual is resolved. -/

section Lookups

theorem searchLabelNameGraphCache_readOnly (label : String) :
    ReadOnly (searchLabelNameGraphCache label) := by
  intro s a s' h
  simp only [searchLabelNameGraphCache_run, Except.ok.injEq, Prod.mk.injEq] at h
  exact h.2.symm

theorem transformElementLabel_readOnly (k : ElementKind) (l : Option String) :
    ReadOnly (transformElementLabel k l) := by
  cases l with
  | none => exact .pure
  | some l =>
    refine (searchLabelNameGraphCache_readOnly l).bind fun kind => ?_
    cases kind with
    | none => exact .throw
    | some kind => exact .ite .pure .throw

theorem transformQualifiedColumnRef_readOnly (refname : String) :
    ReadOnly (transformQualifiedColumnRef refname) := fun s a s' h => by
  rw [transformQualifiedColumnRef_run] at h
  split at h
  · cases h
    rfl
  · cases h

theorem transformFieldRef_readOnly (f : Field) : ReadOnly (transformFieldRef f) := by
  unfold transformFieldRef
  split
  · exact .pure
  · exact .pure
  · exact transformQualifiedColumnRef_readOnly _

theorem transformQuals_readOnly (quals : List Qual) : ReadOnly (transformQuals quals) :=
  ReadOnly.forM fun f _ => transformFieldRef_readOnly f

theorem createPropertyConstraintFunction_readOnly (entity : TransformEntity) (props : CypherProps) :
    ReadOnly (createPropertyConstraintFunction entity props) := by
  refine ReadOnly.bind (fun s a s' h => ?_) fun r => ?_
  · simp only [findRte_run, Except.ok.injEq, Prod.mk.injEq] at h
    exact h.2.symm
  · exact .ite ((transformQualifiedColumnRef_readOnly _).bind fun _ => .pure)
      (ReadOnly.pure.bind fun _ => .pure)

end Lookups

/-! ## The elements of a `MATCH` path

Resolving an element appends at most its own column and allocates nothing;
registering it allocates exactly one entity, declared in the current clause. -/

section MatchSteps

variable {junk : Bool} {p : TransformEntity → Prop} {tl : List TargetEntry}
  {s s' : CypherParseState}

theorem addElementRelation_step {k : ElementKind} {name label : String}
    {r : Expr × String × List TargetEntry}
    (h : (addElementRelation k name label tl).run s = .ok (r, s')) :
    ClauseStep false p tl s r.2.2 s' := by
  rw [addElementRelation_run] at h
  obtain ⟨rfl, rfl⟩ := Prod.mk.inj (Except.ok.inj h)
  exact ⟨.single rfl rfl (fun _ => rfl) rfl, .of_eq rfl rfl⟩

theorem transformElementVariable_step {k : ElementKind} {name : Option String} {label : String}
    {hasProps : Bool} {r : Expr × String × List TargetEntry}
    (h : (transformElementVariable k name label hasProps tl).run s = .ok (r, s')) :
    ClauseStep false p tl s r.2.2 s' := by
  rcases transformElementVariable_cases h with
    ⟨n, e, -, -, rfl, rfl⟩ | ⟨n, te, -, -, -, rfl, rfl⟩ | ⟨n, s₁, hs₁, h₁⟩
  · exact .of_same (.refl _)
  · exact .of_same (.refl _)
  · have hsame : SameCounters s s₁ := by
      rcases hs₁ with ⟨-, -, -, -, rfl⟩ | ⟨-, -, rfl⟩ <;> exact ⟨rfl, rfl, rfl⟩
    exact (ClauseStep.of_same hsame).trans (addElementRelation_step h₁)

theorem transformCypherNode_step {node : CypherNode} {outputNode : Bool}
    {r : Option Expr × CypherNode × List TargetEntry}
    (h : (transformCypherNode node tl outputNode).run s = .ok (r, s')) :
    ClauseStep false p tl s r.2.2 s' := by
  obtain ⟨label, s₁, h₁, h⟩ := run_bind_ok h
  cases transformElementLabel_readOnly _ _ _ _ _ h₁
  split at h
  · obtain ⟨⟨e, n, tl₁⟩, s₂, h₂, h⟩ := run_bind_ok h
    obtain ⟨rfl, rfl⟩ := run_pure_ok h
    exact transformElementVariable_step h₂
  · obtain ⟨rfl, rfl⟩ := run_pure_ok h
    exact .of_same (.refl _)

theorem transformCypherEdge_step {rel : CypherRelationship}
    {r : Expr × CypherRelationship × List TargetEntry}
    (h : (transformCypherEdge rel tl).run s = .ok (r, s')) :
    ClauseStep false p tl s r.2.2 s' := by
  unfold transformCypherEdge at h
  split at h
  · cases h
  · obtain ⟨label, s₁, h₁, h⟩ := run_bind_ok h
    cases transformElementLabel_readOnly _ _ _ _ _ h₁
    obtain ⟨⟨e, n, tl₁⟩, s₂, h₂, h⟩ := run_bind_ok h
    obtain ⟨rfl, rfl⟩ := run_pure_ok h
    exact transformElementVariable_step h₂

/-- Registering an element allocates the next entity, declared in this clause. -/
theorem registerEntity_step {node : EntityNode} {expr : Option Expr} {e : TransformEntity}
    (h : (registerEntity node expr).run s = .ok (e, s')) :
    ClauseStep junk (·.declaredInCurrentClause = true) tl s tl s' := by
  rw [registerEntity_run] at h
  obtain ⟨rfl, rfl⟩ := Prod.mk.inj (Except.ok.inj h)
  exact ⟨.of_resno rfl, ⟨[_], rfl, Nat.le_succ _, by rw [Nat.add_sub_cancel_left]; rfl, by simp⟩⟩

theorem addPropertyConstraint_step {entity : TransformEntity} {props : Option CypherProps}
    {u : Unit} (h : (addPropertyConstraint entity props).run s = .ok (u, s')) :
    ClauseStep junk p tl s tl s' := by
  cases props with
  | none => obtain ⟨-, rfl⟩ := run_pure_ok h; exact .of_same (.refl _)
  | some props =>
    obtain ⟨q, s₁, h₁, h⟩ := run_bind_ok h
    cases createPropertyConstraintFunction_readOnly _ _ _ _ _ h₁
    cases h
    exact .of_same ⟨rfl, rfl, rfl⟩

theorem transformMatchEntities_step {path : CypherPath} {b : Bool} {els : List PathElement}
    {r : List TransformEntity × List TargetEntry}
    (h : (transformMatchEntities path b els tl).run s = .ok (r, s')) :
    ClauseStep false (·.declaredInCurrentClause = true) tl s r.2 s' := by
  induction b, els, tl using transformMatchEntities.induct path generalizing s r s' with
  | case1 b tl =>
    rw [transformMatchEntities] at h
    obtain ⟨rfl, rfl⟩ := run_pure_ok h
    exact .of_same (.refl _)
  | case2 node rest tl ih =>
    rw [transformMatchEntities] at h
    obtain ⟨⟨e, node', tl₁⟩, s₁, h₁, h⟩ := run_bind_ok h
    obtain ⟨entity, s₂, h₂, h⟩ := run_bind_ok h
    obtain ⟨u, s₃, h₃, h⟩ := run_bind_ok h
    obtain ⟨⟨es, tl₂⟩, s₄, h₄, h⟩ := run_bind_ok h
    have hrest := ih tl₁ h₄
    obtain ⟨rfl, rfl⟩ := run_pure_ok h
    exact (transformCypherNode_step h₁).trans <| (registerEntity_step h₂).trans <|
      (addPropertyConstraint_step h₃).trans hrest
  | case3 rel rest tl ih =>
    rw [transformMatchEntities] at h
    obtain ⟨⟨e, rel', tl₁⟩, s₁, h₁, h⟩ := run_bind_ok h
    obtain ⟨entity, s₂, h₂, h⟩ := run_bind_ok h
    obtain ⟨u, s₃, h₃, h⟩ := run_bind_ok h
    obtain ⟨⟨es, tl₂⟩, s₄, h₄, h⟩ := run_bind_ok h
    have hrest := ih tl₁ h₄
    obtain ⟨rfl, rfl⟩ := run_pure_ok h
    exact (transformCypherEdge_step h₁).trans <| (registerEntity_step h₂).trans <|
      (addPropertyConstraint_step h₃).trans hrest
  | case4 b hd tl tl' hnode hrel =>
    rw [transformMatchEntities] at h
    · simp at h
    · exact hnode
    · exact hrel

/-- `transform_match_create_path_variable` fails on fewer than three entities and
otherwise appends the path's column under its name, numbered by the counter. -/
theorem transformMatchCreatePathVariable_spec {name : String} {entities : List TransformEntity}
    {te : TargetEntry} (h : (transformMatchCreatePathVariable name entities).run s = .ok (te, s')) :
    3 ≤ entities.length ∧ te.resno = s.pNextResno ∧ te.resname = some name ∧
      te.resjunk = false ∧ s' = { s with pNextResno := s.pNextResno + 1 } := by
  unfold transformMatchCreatePathVariable at h
  split at h
  · cases h
  · obtain ⟨resno, s₁, h₁, h⟩ := run_bind_ok h
    rw [nextResno_run] at h₁
    obtain ⟨rfl, rfl⟩ := Prod.mk.inj (Except.ok.inj h₁)
    obtain ⟨rfl, rfl⟩ := run_pure_ok h
    exact ⟨by omega, rfl, rfl, rfl, rfl⟩

theorem transformMatchPath_step {path : CypherPath} {r : List Qual × List TargetEntry}
    (h : (transformMatchPath path tl).run s = .ok (r, s')) :
    ClauseStep false (·.declaredInCurrentClause = true) tl s r.2 s' := by
  obtain ⟨⟨es, tl₁⟩, s₁, h₁, h⟩ := run_bind_ok h
  have hentities := transformMatchEntities_step h₁
  dsimp only at h
  split at h
  · obtain ⟨te, s₂, h₂, h⟩ := run_bind_ok h
    obtain ⟨-, hno, hname, hjunk, rfl⟩ := transformMatchCreatePathVariable_spec h₂
    obtain ⟨tl₂, s₃, h₃, h⟩ := run_bind_ok h
    obtain ⟨rfl, rfl⟩ := run_pure_ok h₃
    split at h
    · obtain ⟨rfl, rfl⟩ := run_pure_ok h
      exact hentities.trans ⟨.single hno hjunk (fun _ => by simp [hname]) rfl, .of_eq rfl rfl⟩
    · simp at h
  · obtain ⟨tl₂, s₃, h₃, h⟩ := run_bind_ok h
    obtain ⟨rfl, rfl⟩ := run_pure_ok h₃
    split at h
    · obtain ⟨rfl, rfl⟩ := run_pure_ok h
      exact hentities
    · simp at h

theorem transformMatchPaths_step {pattern : List CypherPath} {r : List Qual × List TargetEntry}
    (h : (transformMatchPaths pattern tl).run s = .ok (r, s')) :
    ClauseStep false (·.declaredInCurrentClause = true) tl s r.2 s' := by
  induction pattern generalizing tl s r s' with
  | nil =>
    obtain ⟨rfl, rfl⟩ := run_pure_ok h
    exact .of_same (.refl _)
  | cons path pattern ih =>
    obtain ⟨⟨q, tl₁⟩, s₁, h₁, h⟩ := run_bind_ok h
    obtain ⟨⟨qs, tl₂⟩, s₂, h₂, h⟩ := run_bind_ok h
    have hrest := ih h₂
    obtain ⟨rfl, rfl⟩ := run_pure_ok h
    exact (transformMatchPath_step h₁).trans hrest

/-- A `MATCH` pattern appends its columns, none junk, and registers its elements,
all declared in the current clause. -/
theorem transformMatchPattern_step {pattern : List CypherPath} {q : Query}
    (h : (transformMatchPattern pattern tl).run s = .ok (q, s')) :
    ClauseStep false (·.declaredInCurrentClause = true) tl s q.targetList s' := by
  obtain ⟨⟨quals, tl₁⟩, s₁, h₁, h⟩ := run_bind_ok h
  obtain ⟨u, s₂, h₂, h⟩ := run_bind_ok h
  cases transformQuals_readOnly _ _ _ _ h₂
  obtain ⟨st, s₃, h₃, h⟩ := run_bind_ok h
  cases ReadOnly.get _ _ _ h₃
  obtain ⟨rfl, rfl⟩ := run_pure_ok h
  exact transformMatchPaths_step h₁

end MatchSteps

end AgeCypher
