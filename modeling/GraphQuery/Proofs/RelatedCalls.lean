import GraphQuery.Function.Registry
import GraphQuery.Proofs.Resemblance

/-! Functions called with arguments that resemble one another, over two graphs. -/

namespace GraphQuery

open Outcome (FailsWith Related Tolerance Ordinary)

theorem fieldsOf_of_not_constant {function : String} {g : Graph} {e : Entry} (he : e.isConstant = false) :
    fieldsOf function g [e] =
      if isNodeOrRelationship e then (g.properties e).map some
      else .error (argumentMismatch function "Node, Relationship or Map" e) := by
  cases e <;> first | rfl | cases he

/-- The texts that an element gives to a path. -/
def Entry.pathPieces : Entry → List String
  | path edges => edges.map edgeText
  | e => [e.text]

theorem Entry.pathPieces_snapshot (e : Entry) : e.snapshot.pathPieces = e.pathPieces := by
  cases e <;> rfl

def pathPart (e : Entry) : Outcome (Option (List String)) :=
  if e.isEntity then .ok (some e.pathPieces)
  else if e.isNull then .ok none
  else .error (argumentMismatch pathFunctionName "graph entity" e)

theorem pathTexts_cons (e : Entry) (rest : List Entry) :
    pathTexts (e :: rest) = do
      match ← pathPart e with
      | none => return none
      | some texts => return (← pathTexts rest).map fun tail => texts ++ tail := by
  cases e with
  | constant v =>
    rw [pathTexts]
    · cases hv : v.isNull <;> simp only [pathPart, Entry.isEntity, Entry.isNull, hv] <;> rfl
    · intro _ h
      cases h
  | _ => rfl

namespace Resemblance

variable {T : Tolerance} {g h : Graph} {R : Entry → Entry → Prop} (hR : Resemblance T g h R)
  {args args' : List Entry} (hargs : List.Forall₂ R args args')

include hR hargs

section Arguments

variable (function : String)

theorem wrongCount_related {α β : Type} {S : α → β → Prop} (expected : Nat) :
    Related T S (.error (wrongCount function expected args))
      (.error (wrongCount function expected args')) := by
  rw [wrongCount, wrongCount, hargs.length_eq]
  exact .of_accepted (hR.accepts nofun)

theorem wrongCountBetween_related {α β : Type} {S : α → β → Prop} (low high : Nat) :
    Related T S (.error (wrongCountBetween function low high args))
      (.error (wrongCountBetween function low high args')) := by
  rw [wrongCountBetween, wrongCountBetween, hargs.length_eq]
  exact .of_accepted (hR.accepts nofun)

theorem oneArgument_related :
    Related T R (oneArgument function args) (oneArgument function args') := by
  rcases hargs with _ | ⟨ha, _ | ⟨hb, hrest⟩⟩
  · exact hR.wrongCount_related .nil function 1
  · exact .of_ok ha
  · exact hR.wrongCount_related (.cons ha (.cons hb hrest)) function 1

theorem twoArguments_related :
    Related T (fun p q => R p.1 q.1 ∧ R p.2 q.2) (twoArguments function args)
      (twoArguments function args') := by
  rcases hargs with _ | ⟨ha, _ | ⟨hb, _ | ⟨hc, hrest⟩⟩⟩
  · exact hR.wrongCount_related .nil function 2
  · exact hR.wrongCount_related (.cons ha .nil) function 2
  · exact .of_ok ⟨ha, hb⟩
  · exact hR.wrongCount_related (.cons ha (.cons hb (.cons hc hrest))) function 2

theorem threeArguments_related :
    Related T (fun p q => R p.1 q.1 ∧ R p.2.1 q.2.1 ∧ R p.2.2 q.2.2) (threeArguments function args)
      (threeArguments function args') := by
  rcases hargs with _ | ⟨ha, _ | ⟨hb, _ | ⟨hc, _ | ⟨hd, hrest⟩⟩⟩⟩
  · exact hR.wrongCount_related .nil function 3
  · exact hR.wrongCount_related (.cons ha .nil) function 3
  · exact hR.wrongCount_related (.cons ha (.cons hb .nil)) function 3
  · exact .of_ok ⟨ha, hb, hc⟩
  · exact hR.wrongCount_related (.cons ha (.cons hb (.cons hc (.cons hd hrest)))) function 3

theorem twoOrThreeArguments_related :
    Related T (fun p q => R p.1 q.1 ∧ R p.2.1 q.2.1 ∧ Option.Rel R p.2.2 q.2.2)
      (twoOrThreeArguments function args) (twoOrThreeArguments function args') := by
  rcases hargs with _ | ⟨ha, _ | ⟨hb, _ | ⟨hc, _ | ⟨hd, hrest⟩⟩⟩⟩
  · exact hR.wrongCountBetween_related .nil function 2 3
  · exact hR.wrongCountBetween_related (.cons ha .nil) function 2 3
  · exact .of_ok ⟨ha, hb, .none⟩
  · exact .of_ok ⟨ha, hb, .some hc⟩
  · exact hR.wrongCountBetween_related (.cons ha (.cons hb (.cons hc (.cons hd hrest)))) function 2 3

/-- Most functions first read one value. -/
theorem related_of_value {α : Type} {rest : Entry → Value → Outcome α}
    (hrest : ∀ arg v, Ordinary (rest arg v)) :
    Related T Eq (oneArgument function args >>= fun arg => valueArgument function arg >>= rest arg)
      (oneArgument function args' >>= fun arg => valueArgument function arg >>= rest arg) := by
  refine (hR.oneArgument_related hargs function).bind fun a b hab => ?_
  refine (hR.valueArgument_related hab function).bind ?_
  rintro v _ ⟨rfl, rfl, rfl⟩
  exact hR.refl (hrest _ v)

end Arguments

section Conversions

theorem toBooleanFunction_related : Related T Eq (toBooleanFunction args) (toBooleanFunction args') := by
  refine hR.related_of_value hargs _ fun arg v => ?_
  repeat' split
  all_goals simp

theorem toFloatFunction_related : Related T Eq (toFloatFunction args) (toFloatFunction args') := by
  refine hR.related_of_value hargs _ fun arg v => ?_
  repeat' split
  all_goals simp

theorem toIntegerFunction_related : Related T Eq (toIntegerFunction args) (toIntegerFunction args') := by
  refine hR.related_of_value hargs _ fun arg v => ?_
  repeat' split
  all_goals simp

theorem toStringFunction_related : Related T Eq (toStringFunction args) (toStringFunction args') := by
  refine hR.related_of_value hargs _ fun arg v => ?_
  repeat' split
  all_goals simp

end Conversions

section Texts

variable (function : String)

theorem numericFunction_related (onInt : Int64 → Option Value) (onReal : Double → Value) :
    Related T Eq (numericFunction function onInt onReal args)
      (numericFunction function onInt onReal args') := by
  refine hR.related_of_value hargs _ fun arg v => ?_
  repeat' split
  all_goals simp

theorem textFunction_related (f : String → String) :
    Related T Eq (textFunction function f args) (textFunction function f args') := by
  refine (hR.oneArgument_related hargs function).bind fun a b hab => ?_
  refine (hR.textArgument_related hab function).bind_left fun s? => hR.raised.of_ordinary ?_
  split <;> simp

theorem replaceFunction_related : Related T Eq (replaceFunction args) (replaceFunction args') := by
  refine (hR.threeArguments_related hargs _).bind fun (a, b, c) (a', b', c') ⟨ha, hb, hc⟩ => ?_
  refine (hR.textArgument_related ha _).bind ?_
  rintro s _ rfl
  refine (hR.textArgument_related hb _).bind ?_
  rintro search _ rfl
  refine (hR.textArgument_related hc _).bind_left fun replacement => hR.raised.of_ordinary ?_
  repeat' split
  all_goals simp

theorem splitFunction_related : Related T Eq (splitFunction args) (splitFunction args') := by
  refine (hR.twoArguments_related hargs _).bind fun (a, b) (a', b') ⟨ha, hb⟩ => ?_
  refine (hR.textArgument_related ha _).bind ?_
  rintro s _ rfl
  refine (hR.textArgument_related hb _).bind_left fun delimiters => hR.raised.of_ordinary ?_
  split <;> simp

theorem endOfText_related (pick : String → Nat → String) :
    Related T Eq (endOfText function pick args) (endOfText function pick args') := by
  refine (hR.twoArguments_related hargs _).bind fun (a, b) (a', b') ⟨ha, hb⟩ => ?_
  have hlength : Related T Eq (lengthArgument function b) (lengthArgument function b') := by
    refine (hR.intArgument_related hb _).bind_left fun n => hR.raised.of_ordinary ?_
    split <;> simp
  refine hlength.bind ?_
  rintro n _ rfl
  refine (hR.textArgument_related ha _).bind_left fun s? => hR.raised.of_ordinary ?_
  split <;> simp

theorem substringFunction_related : Related T Eq (substringFunction args) (substringFunction args') := by
  refine (hR.threeArguments_related hargs _).bind fun (a, b, c) (a', b', c') ⟨ha, hb, hc⟩ => ?_
  refine ((hR.textArgument_related ha _).map (S := Eq) fun _ _ hs => by rw [hs]).bind ?_
  rintro s _ rfl
  refine (hR.intArgument_related hb _).bind ?_
  rintro start _ rfl
  refine (hR.intArgument_related hc _).bind_left fun length => hR.raised.of_ordinary (.map ?_ _)
  rw [substringText]
  repeat' split
  all_goals simp

theorem appendTexts_related (number : Nat) :
    Related T Eq (appendTexts number args) (appendTexts number args') := by
  induction hargs generalizing number with
  | nil => exact .of_ok rfl
  | cons hab _ ih =>
    refine (hR.textArgument_related hab _).bind ?_
    rintro s? _ rfl
    cases s? with
    | none => exact .of_accepted (hR.accepts nofun)
    | some s => exact (ih (number + 1)).bind_left fun _ => Outcome.failsWith_ok _

theorem concatFunction_related : Related T Eq (concatFunction args) (concatFunction args') := by
  have hfew : Related T (Eq (α := Value))
      (.error (.invalidArgument "concat" "expected at least 2 arguments"))
      (.error (.invalidArgument "concat" "expected at least 2 arguments")) :=
    .of_accepted (hR.accepts nofun)
  rcases hargs with _ | ⟨ha, _ | ⟨hb, hrest⟩⟩
  · exact hfew
  · exact hfew
  · refine ((hR.textArgument_related ha _).map (S := Eq) fun _ _ hs => by rw [hs]).bind ?_
    rintro head _ rfl
    exact (hR.appendTexts_related (.cons hb hrest) 2).bind_left fun _ => Outcome.failsWith_ok _

theorem textTest_related (test : List Char → List Char → Bool) :
    Related T Eq (textTest function test args) (textTest function test args') := by
  refine (hR.twoArguments_related hargs _).bind fun (a, b) (a', b') ⟨ha, hb⟩ => ?_
  refine ((hR.textArgument_related ha _).map (S := Eq) fun _ _ hs => by rw [hs]).bind ?_
  rintro s _ rfl
  refine (hR.textArgument_related hb _).bind_left fun needle? => hR.raised.of_ordinary ?_
  split <;> simp

end Texts

section Sequences

theorem sizeFunction_related : Related T Eq (sizeFunction args) (sizeFunction args') := by
  refine hR.related_of_value hargs _ fun arg v => ?_
  repeat' split
  all_goals simp

theorem endOfList_related (function : String) (pick : List Value → Option Value) :
    Related T Eq (endOfList function pick args) (endOfList function pick args') := by
  refine hR.related_of_value hargs _ fun arg v => ?_
  repeat' split
  all_goals simp

theorem rangeFunction_related : Related T Eq (rangeFunction args) (rangeFunction args') := by
  refine (hR.twoOrThreeArguments_related hargs _).bind fun (a, b, c?) (a', b', c'?) ⟨ha, hb, hc⟩ => ?_
  refine (hR.intArgument_related ha _).bind ?_
  rintro start _ rfl
  refine (hR.intArgument_related hb _).bind ?_
  rintro stop _ rfl
  extract_lets rest
  have hrest : ∀ step, Ordinary (rest step) := by
    intro step
    simp only [rest]
    split <;> simp
  cases hc with
  | none => exact hR.refl (.bind (Outcome.failsWith_ok _) fun step _ => hrest step)
  | some hc =>
    exact (hR.intArgument_related hc _).bind_left fun step => hR.raised.of_ordinary (hrest step)

theorem subscriptFunction_related : Related T Eq (subscriptFunction args) (subscriptFunction args') := by
  refine (hR.twoOrThreeArguments_related hargs _).bind fun (a, b, c?) (a', b', c'?) ⟨ha, hb, hc⟩ => ?_
  refine (hR.valueArgument_related ha _).bind ?_
  rintro v _ ⟨rfl, rfl, rfl⟩
  have hnull : c?.any Entry.isNull = c'?.any Entry.isNull := by
    cases hc with
    | none => rfl
    | some hc => exact hR.isNull hc
  simp only [hR.isNull hb, hnull]
  split
  · exact .of_ok rfl
  · split
    · exact .of_accepted (hR.accepts nofun)
    · refine (hR.intArgument_related hb _).bind ?_
      rintro first _ rfl
      cases hc with
      | none => exact .of_ok rfl
      | some hc => exact (hR.intArgument_related hc _).bind_left fun _ => Outcome.failsWith_ok _

theorem coalesceFunction_related : Related T Eq (coalesceFunction args) (coalesceFunction args') := by
  have hfirst : Related T Eq (firstNonNull args) (firstNonNull args') := by
    induction hargs with
    | nil => exact .of_ok rfl
    | cons hab _ ih =>
      refine (hR.valueArgument_related hab _).bind ?_
      rintro v _ ⟨rfl, -, -⟩
      cases v.isNull with
      | true => exact ih
      | false => exact .of_ok rfl
  cases hargs with
  | nil => exact .of_accepted (hR.accepts nofun)
  | cons => exact hfirst

theorem existsFunction_related : Related T Eq (existsFunction args) (existsFunction args') := by
  refine (hR.oneArgument_related hargs _).bind fun a b hab => ?_
  rw [hR.isNull hab, hR.isUnknown hab]
  exact .of_ok rfl

theorem toFloat32ListFunction_related :
    Related T Eq (toFloat32ListFunction args) (toFloat32ListFunction args') := by
  refine hR.related_of_value hargs _ fun arg v => ?_
  split
  · exact .bind (narrowNumbers_ordinary _) fun _ _ => by simp
  · simp

end Sequences

section Moments

theorem momentArgument_related (function : String) :
    Related T Eq (momentArgument function args) (momentArgument function args') := by
  rcases hargs with _ | ⟨ha, _ | ⟨hb, hrest⟩⟩
  · exact .of_accepted (hR.accepts nofun)
  · refine (hR.valueArgument_related ha function).map ?_
    rintro v _ ⟨rfl, rfl, rfl⟩
    rfl
  · exact hR.wrongCountBetween_related (.cons ha (.cons hb hrest)) function 0 1

theorem dateFunction_related : Related T Eq (dateFunction args) (dateFunction args') := by
  refine (hR.momentArgument_related hargs _).bind_left fun (arg, v) => hR.raised.of_ordinary ?_
  repeat' split
  all_goals simp

theorem dateTimeFunction_related : Related T Eq (dateTimeFunction args) (dateTimeFunction args') := by
  refine (hR.momentArgument_related hargs _).bind_left fun (arg, v) => hR.raised.of_ordinary ?_
  repeat' split
  all_goals simp

theorem dateTimeComponentFunction_related :
    Related T Eq (dateTimeComponentFunction args) (dateTimeComponentFunction args') := by
  refine (hR.twoArguments_related hargs _).bind fun (a, b) (a', b') ⟨ha, hb⟩ => ?_
  refine (hR.valueArgument_related ha _).bind ?_
  rintro v _ ⟨rfl, rfl, rfl⟩
  extract_lets rest rest'
  have hrest : ∀ moment, Related T Eq (rest moment) (rest' moment) := by
    intro moment
    cases moment with
    | none => exact .of_ok rfl
    | some t =>
      refine (hR.valueArgument_related hb _).bind ?_
      rintro name _ ⟨rfl, rfl, rfl⟩
      refine hR.refl ?_
      split
      · exact .bind (momentField_ordinary t _) fun n _ => by simp
      · simp
  have hbind : ∀ moment : Outcome (Option DateTime), moment.Ordinary →
      Related T Eq (moment >>= rest) (moment >>= rest') := by
    intro moment hmoment
    refine (hR.refl hmoment).bind ?_
    rintro m _ rfl
    exact hrest m
  split
  all_goals exact hbind _ (by simp)

end Moments

section Elements

theorem elementFunction_related {function expected : String} {accepts : Entry → Bool}
    {read : Graph → Entry → Outcome Value} (haccepts : ∀ e : Entry, accepts e.snapshot = accepts e)
    (hread : ∀ a b, R a b → Related T Eq (read g a) (read h b)) :
    Related T Eq (elementFunction function expected accepts read g args)
      (elementFunction function expected accepts read h args') := by
  refine (hR.oneArgument_related hargs _).bind fun a b hab => ?_
  simp only [hR.isNull hab, hR.congr hab haccepts, hR.isValid a b hab]
  split
  · exact .of_ok rfl
  · split
    · exact hR.argumentMismatch_related hab function expected
    · split
      · exact .of_ok rfl
      · exact hread a b hab

theorem idFunction_related : Related T Eq (idFunction g args) (idFunction h args') := by
  refine hR.elementFunction_related hargs (fun e => by simp [isNodeOrRelationship]) fun a b hab => ?_
  have hid : elementId a = elementId b := hR.congr hab fun e => by simp [elementId]
  exact .of_ok hid

theorem typeFunction_related : Related T Eq (typeFunction g args) (typeFunction h args') := by
  refine hR.elementFunction_related hargs Entry.isRelationship_snapshot fun a b hab => ?_
  exact (hR.relationshipType_related hab).map fun _ _ ht => by rw [ht]

theorem labelFunction_related : Related T Eq (labelFunction g args) (labelFunction h args') := by
  refine hR.elementFunction_related hargs (fun e => by simp [isNodeOrRelationship]) fun a b hab => ?_
  rw [hR.isRelationship hab]
  split
  · exact (hR.relationshipType_related hab).map fun _ _ ht => by rw [ht]
  · exact (hR.labels_related hab).map fun _ _ hl => by rw [hl]

theorem edgeIdFunction_related : Related T Eq (edgeIdFunction g args) (edgeIdFunction h args') := by
  refine hR.elementFunction_related hargs Entry.isRelationship_snapshot fun a b hab => ?_
  rw [hR.edgeId hab]
  exact .of_ok rfl

theorem labelsFunction_related : Related T Eq (labelsFunction g args) (labelsFunction h args') := by
  refine (hR.oneArgument_related hargs _).bind fun a b hab => ?_
  simp only [hR.isNull hab, hR.isNode hab]
  split
  · exact .of_ok rfl
  · split
    · exact hR.argumentMismatch_related hab "labels" "Node"
    · exact (hR.labels_related hab).map fun _ _ hl => by rw [hl]

theorem fieldsOf_related (function : String) :
    Related T Eq (fieldsOf function g args) (fieldsOf function h args') := by
  rcases hargs with _ | @⟨a, b, _, _, hab, _ | ⟨hb, hrest⟩⟩
  · exact hR.wrongCount_related .nil function 1
  · rcases hR.eq_constant_or hab with ⟨v, rfl, rfl⟩ | ⟨ha, hb⟩
    · refine hR.refl (.bind (Outcome.failsWith_ok _) fun arg harg => ?_)
      obtain rfl := Except.ok.inj harg
      cases v with
      | map fields => exact Outcome.failsWith_ok _
      | _ =>
        dsimp only
        split <;> simp
    · rw [fieldsOf_of_not_constant ha, fieldsOf_of_not_constant hb,
        hR.congr hab (f := isNodeOrRelationship) fun e => by simp [isNodeOrRelationship]]
      split
      · exact (hR.elementFields_related hab "properties").map fun _ _ hf => by rw [hf]
      · exact hR.argumentMismatch_related hab function _
  · exact hR.wrongCount_related (.cons hab (.cons hb hrest)) function 1

theorem endOfRelationship_related (function : String) (pick : EdgeId → NodeId) :
    Related T Eq (endOfRelationship function pick args) (endOfRelationship function pick args') := by
  refine (hR.oneArgument_related hargs _).bind fun a b hab => ?_
  rw [hR.edgeId hab, hR.isNull hab]
  split
  · exact .of_ok rfl
  · split
    · exact .of_ok rfl
    · exact hR.argumentMismatch_related hab function "Relationship"

theorem pathTexts_related : Related T Eq (pathTexts args) (pathTexts args') := by
  induction hargs with
  | nil => exact .of_ok rfl
  | @cons a b rest rest' hab _ ih =>
    have hhere : Related T Eq (pathPart a) (pathPart b) := by
      rw [pathPart, pathPart, hR.congr hab Entry.isEntity_snapshot, hR.isNull hab,
        hR.congr hab Entry.pathPieces_snapshot]
      split
      · exact .of_ok rfl
      · split
        · exact .of_ok rfl
        · exact hR.argumentMismatch_related hab _ _
    rw [pathTexts_cons, pathTexts_cons]
    refine hhere.bind ?_
    rintro here _ rfl
    cases here with
    | none => exact .of_ok rfl
    | some texts => exact ih.bind_left fun _ => Outcome.failsWith_ok _

end Elements

theorem builtins_related : ∀ p ∈ builtins, Related T Eq (p.2 g args) (p.2 h args') := by
  simp only [builtins, List.forall_mem_cons, List.not_mem_nil, IsEmpty.forall_iff, implies_true, and_true]
  exact ⟨(hR.pathTexts_related hargs).map fun _ _ ht => by rw [ht],
    hR.numericFunction_related hargs _ _ _,
    hR.numericFunction_related hargs _ _ _,
    hR.coalesceFunction_related hargs,
    hR.concatFunction_related hargs,
    hR.textTest_related hargs _ _,
    hR.dateFunction_related hargs,
    hR.dateTimeFunction_related hargs,
    hR.dateTimeComponentFunction_related hargs,
    hR.endOfRelationship_related hargs _ _,
    hR.textTest_related hargs _ _,
    hR.edgeIdFunction_related hargs,
    hR.existsFunction_related hargs,
    hR.numericFunction_related hargs _ _ _,
    hR.endOfList_related hargs _ _,
    hR.idFunction_related hargs,
    (hR.fieldsOf_related hargs _).map fun _ _ hf => by rw [hf],
    hR.labelFunction_related hargs,
    hR.labelsFunction_related hargs,
    hR.endOfList_related hargs _ _,
    hR.endOfText_related hargs _ _,
    hR.sizeFunction_related hargs,
    hR.textFunction_related hargs _ _,
    (hR.fieldsOf_related hargs _).map fun _ _ hf => by rw [hf],
    hR.rangeFunction_related hargs,
    hR.replaceFunction_related hargs,
    hR.textFunction_related hargs _ _,
    hR.endOfText_related hargs _ _,
    hR.numericFunction_related hargs _ _ _,
    hR.textFunction_related hargs _ _,
    hR.numericFunction_related hargs _ _ _,
    hR.sizeFunction_related hargs,
    hR.splitFunction_related hargs,
    hR.endOfRelationship_related hargs _ _,
    hR.textTest_related hargs _ _,
    hR.subscriptFunction_related hargs,
    hR.substringFunction_related hargs,
    hR.toBooleanFunction_related hargs,
    hR.toFloatFunction_related hargs,
    hR.toFloat32ListFunction_related hargs,
    hR.toIntegerFunction_related hargs,
    hR.textFunction_related hargs _ _,
    hR.toStringFunction_related hargs,
    hR.textFunction_related hargs _ _,
    hR.textFunction_related hargs _ _,
    hR.typeFunction_related hargs⟩

theorem pluginArguments_related (name : String) :
    Related T Eq (pluginArguments name args) (pluginArguments name args') := by
  induction hargs with
  | nil => exact .of_ok rfl
  | @cons a b rest rest' hab _ ih =>
    rcases hR.eq_constant_or hab with ⟨v, rfl, rfl⟩ | ⟨ha, hb⟩
    · exact ih.bind_left fun _ => Outcome.failsWith_ok _
    · have hother : ∀ (e : Entry) (rest : List Entry), e.isConstant = false →
          pluginArguments name (e :: rest) =
            .error (.invalidArgument name ("plugins accept values only, got " ++ e.kindName)) := by
        intro e rest he
        cases e <;> first | rfl | cases he
      rw [hother a rest ha, hother b rest' hb]
      exact .of_error (hR.allows_kind hab
        (fun kind => .invalidArgument name ("plugins accept values only, got " ++ kind))
        (fun _ _ => nofun) fun _ _ => rfl)

omit hR hargs in
/-- Calls in two contexts that differ in their graphs only. -/
theorem callFunction_related {ctx ctx' : Context} (hR : Resemblance T ctx.graph ctx'.graph R)
    (hargs : List.Forall₂ R args args') (hp : ctx.plugins = ctx'.plugins)
    (hplugins : ∀ plugins, ctx.plugins = some plugins → ∀ name values,
      FailsWith T.Accepts (plugins name values)) (name : String) :
    Related T Eq (callFunction ctx name args) (callFunction ctx' name args') := by
  rw [callFunction, callFunction, ← hp]
  cases hb : builtin? (lowerCase name) with
  | some builtin =>
    obtain ⟨before, after, hbuiltins, -⟩ := List.lookup_eq_some_iff.mp hb
    have hmem : (lowerCase name, builtin) ∈ builtins := by simp [hbuiltins]
    exact hR.builtins_related hargs _ hmem
  | none =>
    cases hplugin : ctx.plugins with
    | none => exact .of_accepted (hR.accepts nofun)
    | some plugins =>
      refine (hR.pluginArguments_related hargs name).bind_left fun values => ?_
      refine .bind (hplugins plugins hplugin name values) fun result _ => ?_
      cases result with
      | none => exact Outcome.failsWith_error.mpr (hR.accepts nofun)
      | some result => simp

end Resemblance

end GraphQuery
