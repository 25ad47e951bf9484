import GraphQuery.Evaluation.Operator
import GraphQuery.Proofs.FaultKinds

/-! Entries of two evaluations that stand for the same things. Operators and functions give the same for
them, but for the texts of faults. -/

namespace GraphQuery

open Outcome (FailsWith Related Tolerance Ordinary)

namespace Entry

variable {a b : Entry}

@[simp]
theorem snapshot_snapshot (a : Entry) : a.snapshot.snapshot = a.snapshot := by cases a <;> rfl

@[simp]
theorem asConstant_snapshot (a : Entry) : a.snapshot.asConstant = a.asConstant := by cases a <;> rfl

@[simp]
theorem isConstant_snapshot (a : Entry) : a.snapshot.isConstant = a.isConstant := by cases a <;> rfl

@[simp]
theorem isNull_snapshot (a : Entry) : a.snapshot.isNull = a.isNull := by cases a <;> rfl

@[simp]
theorem isUnknown_snapshot (a : Entry) : a.snapshot.isUnknown = a.isUnknown := by cases a <;> rfl

@[simp]
theorem isNode_snapshot (a : Entry) : a.snapshot.isNode = a.isNode := by cases a <;> rfl

@[simp]
theorem isRelationship_snapshot (a : Entry) : a.snapshot.isRelationship = a.isRelationship := by
  cases a <;> rfl

@[simp]
theorem isEntity_snapshot (a : Entry) : a.snapshot.isEntity = a.isEntity := by cases a <;> rfl

@[simp]
theorem nodeId_snapshot (a : Entry) : a.snapshot.nodeId = a.nodeId := by cases a <;> rfl

@[simp]
theorem edgeId_snapshot (a : Entry) : a.snapshot.edgeId = a.edgeId := by cases a <;> rfl

@[simp]
theorem text_snapshot (a : Entry) : a.snapshot.text = a.text := by cases a <;> rfl

/-- What reads a reference and its snapshot alike reads entries of one snapshot alike. -/
theorem congr_of_snapshot {γ : Type} {f : Entry → γ} (hf : ∀ e, f e.snapshot = f e)
    (h : a.snapshot = b.snapshot) : f a = f b := by
  rw [← hf a, h, hf b]

theorem eq_of_snapshot_eq_constant {v : Value} (h : a.snapshot = .constant v) : a = .constant v := by
  cases a with
  | constant w => exact h
  | _ => cases h

end Entry

/-- Faults may differ in their texts. -/
def Outcome.Tolerance.IgnoresTexts (T : Tolerance) : Prop :=
  ∀ fault fault' : Error, fault.SameKind fault' → T.allows (some fault) fault'

/-- Related entries name the same thing, about which the two graphs say the same. Where they are
references of different kinds, faults may differ in their texts. -/
structure Resemblance (T : Tolerance) (g h : Graph) (R : Entry → Entry → Prop) : Prop where
  raised : T.AcceptsRaised
  constant : ∀ v, R (.constant v) (.constant v)
  snapshot : ∀ a b, R a b → a.snapshot = b.snapshot
  isValid : ∀ a b, R a b → g.isValid a = h.isValid b
  nodeData : ∀ a b, R a b → g.nodeData a = h.nodeData b
  edgeData : ∀ a b, R a b → g.edgeData a = h.edgeData b
  kind : ∀ a b, R a b → a.kindName = b.kindName ∨ T.IgnoresTexts

namespace Resemblance

theorem same_graph {T : Tolerance} (hT : T.AcceptsRaised) (g : Graph) : Resemblance T g g Eq where
  raised := hT
  constant := fun _ => rfl
  snapshot := fun _ _ hab => congrArg _ hab
  isValid := fun _ _ hab => congrArg _ hab
  nodeData := fun _ _ hab => congrArg _ hab
  edgeData := fun _ _ hab => congrArg _ hab
  kind := fun _ _ hab => .inl (congrArg _ hab)

variable {T : Tolerance} {g h : Graph} {R : Entry → Entry → Prop} (hR : Resemblance T g h R)

include hR

theorem accepts {fault : Error} (h : ∀ detail, fault ≠ .internalInvariant detail) : T.Accepts fault :=
  hR.raised fault (.ordinary h)

theorem refl {α : Type} {x : Outcome α} (hx : x.Ordinary) : Related T Eq x x :=
  .refl (hR.raised.of_ordinary hx)

section Entries

variable {a b : Entry} (hab : R a b)

include hab

theorem congr {γ : Type} {f : Entry → γ} (hf : ∀ e, f e.snapshot = f e) : f a = f b :=
  Entry.congr_of_snapshot hf (hR.snapshot a b hab)

theorem isNull : a.isNull = b.isNull := hR.congr hab Entry.isNull_snapshot

theorem isUnknown : a.isUnknown = b.isUnknown := hR.congr hab Entry.isUnknown_snapshot

theorem isConstant : a.isConstant = b.isConstant := hR.congr hab Entry.isConstant_snapshot

theorem isNode : a.isNode = b.isNode := hR.congr hab Entry.isNode_snapshot

theorem isRelationship : a.isRelationship = b.isRelationship :=
  hR.congr hab Entry.isRelationship_snapshot

theorem edgeId : a.edgeId = b.edgeId := hR.congr hab Entry.edgeId_snapshot

theorem text : a.text = b.text := hR.congr hab Entry.text_snapshot

/-- Related values are the same value. -/
theorem eq_constant_or : (∃ v, a = .constant v ∧ b = .constant v) ∨
    a.isConstant = false ∧ b.isConstant = false := by
  cases hc : b.isConstant with
  | false => exact .inr ⟨(hR.isConstant hab).trans hc, rfl⟩
  | true =>
    cases b with
    | constant v => exact .inl ⟨v, Entry.eq_of_snapshot_eq_constant (hR.snapshot a _ hab), rfl⟩
    | _ => cases hc

/-- A fault that tells the kind of an entry. -/
theorem allows_kind (make : String → Error) (ho : ∀ kind detail, make kind ≠ .internalInvariant detail)
    (hk : ∀ kind kind', (make kind).SameKind (make kind')) :
    T.allows (some (make a.kindName)) (make b.kindName) := by
  rcases hR.kind a b hab with he | hT
  · rw [he]
    exact hR.accepts (ho _)
  · exact hT _ _ (hk _ _)

theorem argumentMismatch_related {α β : Type} {S : α → β → Prop} (function expected : String) :
    Related T S (.error (argumentMismatch function expected a))
      (.error (argumentMismatch function expected b)) :=
  .of_error (hR.allows_kind hab
    (fun kind => .invalidArgument function ("expected " ++ expected ++ ", got " ++ kind))
    (fun _ _ => nofun) fun _ _ => rfl)

theorem valueArgument_related (function : String) :
    Related T (fun v w => v = w ∧ a = .constant v ∧ b = .constant w) (valueArgument function a)
      (valueArgument function b) := by
  rcases hR.eq_constant_or hab with ⟨v, rfl, rfl⟩ | ⟨ha, hb⟩
  · exact .of_ok ⟨rfl, rfl, rfl⟩
  · have hother : ∀ e : Entry, e.isConstant = false →
        valueArgument function e = .error (argumentMismatch function "a value" e) := by
      intro e he
      cases e <;> first | rfl | cases he
    rw [hother a ha, hother b hb]
    exact hR.argumentMismatch_related hab function "a value"

theorem textArgument_related (function : String) :
    Related T Eq (textArgument function a) (textArgument function b) := by
  refine (hR.valueArgument_related hab function).bind ?_
  rintro v _ ⟨rfl, -, -⟩
  refine hR.refl ?_
  repeat' split
  all_goals simp

theorem intArgument_related (function : String) :
    Related T Eq (intArgument function a) (intArgument function b) := by
  refine (hR.valueArgument_related hab function).bind ?_
  rintro v _ ⟨rfl, -, -⟩
  refine hR.refl ?_
  split <;> simp

theorem notAnEntity_related {α β : Type} {S : α → β → Prop} (operation : String) :
    Related T S (.error (notAnEntity operation a)) (.error (notAnEntity operation b)) :=
  .of_error (hR.allows_kind hab
    (fun kind => .typeMismatch operation ("expected graph entity, got " ++ kind))
    (fun _ _ => nofun) fun _ _ => rfl)

theorem elementFields_related (operation : String) :
    Related T Eq (g.elementFields operation a) (h.elementFields operation b) := by
  rw [Graph.elementFields, Graph.elementFields, hR.isNode hab, hR.isRelationship hab,
    hR.nodeData a b hab, hR.edgeData a b hab]
  split
  · exact .of_ok rfl
  · split
    · exact .of_ok rfl
    · exact hR.notAnEntity_related hab operation

theorem labels_related : Related T Eq (g.labels a) (h.labels b) := by
  rw [Graph.labels, Graph.labels, hR.isNode hab, hR.nodeData a b hab]
  split
  · exact .of_ok rfl
  · exact hR.notAnEntity_related hab "labels"

theorem hasLabel_related (label : String) : Related T Eq (g.hasLabel a label) (h.hasLabel b label) := by
  rw [Graph.hasLabel, Graph.hasLabel, hR.isNode hab, hR.nodeData a b hab]
  split
  · exact .of_ok rfl
  · exact hR.notAnEntity_related hab "IsLabeled"

theorem relationshipType_related : Related T Eq (g.relationshipType a) (h.relationshipType b) := by
  rw [Graph.relationshipType, Graph.relationshipType, hR.isRelationship hab, hR.edgeData a b hab]
  split
  · exact .of_ok rfl
  · exact hR.notAnEntity_related hab "type"

theorem isTrue : a.isTrue = b.isTrue := hR.congr hab fun e => by simp [Entry.isTrue]

theorem operand_related (symbol : String) : Related T Eq (operand symbol a) (operand symbol b) := by
  rcases hR.eq_constant_or hab with ⟨v, rfl, rfl⟩ | ⟨ha, hb⟩
  · exact .of_ok rfl
  · have hother : ∀ e : Entry, e.isConstant = false →
        operand symbol e = .error (.unimplemented ("operator " ++ symbol ++ " on " ++ e.kindName)) := by
      intro e he
      cases e <;> first | rfl | cases he
    rw [hother a ha, hother b hb]
    exact .of_error (hR.allows_kind hab
      (fun kind => .unimplemented ("operator " ++ symbol ++ " on " ++ kind)) (fun _ _ => nofun)
      fun _ _ => rfl)

theorem elementValue_related : Related T Eq a.elementValue b.elementValue := by
  rcases hR.eq_constant_or hab with ⟨v, rfl, rfl⟩ | ⟨ha, hb⟩
  · exact .of_ok rfl
  · have hother : ∀ e : Entry, e.isConstant = false →
        e.elementValue = if e.isUnknown then .error unboundInCollection else .ok (.string e.text) := by
      intro e he
      cases e <;> first | rfl | cases he
    rw [hother a ha, hother b hb, hR.isUnknown hab, hR.text hab]
    split
    · exact .of_accepted (hR.raised _ .unbound)
    · exact .of_ok rfl

theorem readProperty_related (name : String) :
    Related T R (readProperty g a name) (readProperty h b name) := by
  rcases hR.eq_constant_or hab with ⟨v, rfl, rfl⟩ | ⟨ha, hb⟩
  · rw [readProperty.eq_def, readProperty.eq_def]
    extract_lets fault
    cases v with
    | map fields => exact .of_ok (hR.constant _)
    | _ =>
      dsimp only
      split
      · exact .of_ok (hR.constant _)
      · exact .of_accepted (hR.accepts nofun)
  · have hother : ∀ (g : Graph) (e : Entry), e.isConstant = false →
        readProperty g e name =
          if e.isNode || e.isRelationship then (g.field e name).map .constant
          else .error (.typeMismatch "property access"
            ("cannot read ." ++ name ++ " of " ++ e.kindName)) := by
      intro g e he
      cases e <;> first | rfl | cases he
    rw [hother g a ha, hother h b hb, hR.isNode hab, hR.isRelationship hab]
    split
    · refine ((hR.elementFields_related hab "GetField").map (S := Eq) ?_).map ?_
      · rintro fields _ rfl
        rfl
      · rintro v _ rfl
        exact hR.constant v
    · exact .of_error (hR.allows_kind hab
        (fun kind => .typeMismatch "property access" ("cannot read ." ++ name ++ " of " ++ kind))
        (fun _ _ => nofun) fun _ _ => rfl)

theorem checkLabel_related (label : String) :
    Related T R (checkLabel g a label) (checkLabel h b label) := by
  rw [checkLabel, checkLabel, hR.isNull hab, hR.isNode hab, hR.isRelationship hab]
  split
  · exact .of_ok (hR.constant _)
  · split
    · refine (hR.hasLabel_related hab label).map ?_
      rintro has _ rfl
      exact hR.constant _
    · exact .of_error (hR.allows_kind hab
        (fun kind => .typeMismatch "label check" ("expected an entity, got " ++ kind))
        (fun _ _ => nofun) fun _ _ => rfl)

section Pairs

variable {c d : Entry} (hcd : R c d)

include hcd

theorem same : a.same c = b.same d := by
  rw [Entry.same, Entry.same, hR.snapshot a b hab, hR.snapshot c d hcd]

theorem elementEquality (op : BinaryOp) : op.elementEquality a c = op.elementEquality b d := by
  rw [BinaryOp.elementEquality, BinaryOp.elementEquality, hR.same hab hcd]

theorem matchesSubject_related : Related T Eq (matchesSubject a c) (matchesSubject b d) := by
  have hother : ∀ subject candidate : Entry, subject.isConstant = false ∨ candidate.isConstant = false →
      matchesSubject subject candidate = .ok (subject.same candidate) := by
    intro subject candidate h
    cases subject <;> cases candidate <;> first | rfl | simp [Entry.isConstant] at h
  have hnot : a.isConstant = false ∨ c.isConstant = false →
      Related T Eq (matchesSubject a c) (matchesSubject b d) := by
    intro h
    rw [hother a c h, hother b d (by rwa [hR.isConstant hab, hR.isConstant hcd] at h), hR.same hab hcd]
    exact .of_ok rfl
  rcases hR.eq_constant_or hab with ⟨v, rfl, rfl⟩ | ⟨ha, -⟩
  · rcases hR.eq_constant_or hcd with ⟨w, rfl, rfl⟩ | ⟨hc, -⟩
    · exact hR.refl ((compareBy_ordinary v w .eq).map _)
    · exact hnot (.inr hc)
  · exact hnot (.inl ha)

end Pairs

end Entries

end Resemblance

end GraphQuery
