import Mathlib.Data.List.Forall2
import Mathlib.Data.List.Perm.Basic

/-! Lists side by side, whose elements are related in pairs. -/

namespace GraphQuery

variable {α β γ δ : Type} {R : α → β → Prop} {as : List α} {bs : List β}

theorem forall₂_trans {S : β → γ → Prop} {T : α → γ → Prop} (hT : ∀ a b c, R a b → S b c → T a c)
    {cs : List γ} (h : List.Forall₂ R as bs) (h' : List.Forall₂ S bs cs) : List.Forall₂ T as cs := by
  induction h generalizing cs with
  | nil =>
    cases h'
    exact .nil
  | cons hab h ih =>
    cases h' with
    | cons hbc h' => exact .cons (hT _ _ _ hab hbc) (ih h')

theorem exists_forall₂ (h : ∀ a ∈ as, ∃ b, R a b) : ∃ bs, List.Forall₂ R as bs := by
  induction as with
  | nil => exact ⟨[], .nil⟩
  | cons a as ih =>
    obtain ⟨⟨b, hb⟩, hrest⟩ := List.forall_mem_cons.mp h
    obtain ⟨bs, hbs⟩ := ih hrest
    exact ⟨b :: bs, .cons hb hbs⟩

theorem mem_zip_of_forall₂ (h : List.Forall₂ R as bs) (g : α → γ) {p : γ × β} (hp : p ∈ (as.map g).zip bs) :
    ∃ a ∈ as, p.1 = g a ∧ R a p.2 := by
  induction h with
  | nil => simp at hp
  | @cons a b as bs hab h ih =>
    rcases List.mem_cons.mp hp with rfl | hp
    · exact ⟨a, by simp, rfl, hab⟩
    · obtain ⟨c, hc, hr⟩ := ih hp
      exact ⟨c, List.mem_cons_of_mem a hc, hr⟩

theorem mem_left_of_forall₂ (h : List.Forall₂ R as bs) {a : α} (ha : a ∈ as) : ∃ b ∈ bs, R a b := by
  induction h with
  | nil => simp at ha
  | @cons a' b as bs hab h ih =>
    rcases List.mem_cons.mp ha with rfl | ha
    · exact ⟨b, List.mem_cons_self, hab⟩
    · obtain ⟨b', hb', hr⟩ := ih ha
      exact ⟨b', List.mem_cons_of_mem b hb', hr⟩

theorem mem_right_of_forall₂ (h : List.Forall₂ R as bs) {b : β} (hb : b ∈ bs) : ∃ a ∈ as, R a b :=
  mem_left_of_forall₂ (R := flip R) h.flip hb

/-- Elements that are the same up to their order and up to `S` have results that are so up to `T`. -/
theorem exists_perm_forall₂ {R' : β → δ → Prop} {S : α → β → Prop} {T : γ → δ → Prop} {Q : α → γ → Prop}
    {mid : List α} {cs : List γ} {ds : List δ} (hperm : as.Perm mid) (hmid : List.Forall₂ S mid bs)
    (hcs : List.Forall₂ Q as cs) (hds : List.Forall₂ R' bs ds)
    (hT : ∀ a ∈ as, ∀ b c d, S a b → Q a c → R' b d → T c d) :
    ∃ moved, cs.Perm moved ∧ List.Forall₂ T moved ds := by
  have hin : List.Forall₂ (fun a c => a ∈ as ∧ Q a c) as cs :=
    (List.forall₂_and_left as cs).mpr ⟨fun _ ha => ha, hcs⟩
  obtain ⟨moved, hmoved, hcs⟩ := List.perm_comp_forall₂ hperm.symm hin
  have hacross : List.Forall₂ (fun c b => ∃ a ∈ as, Q a c ∧ S a b) moved bs :=
    forall₂_trans (fun _ a _ hc hb => ⟨a, hc.1, hc.2, hb⟩) hmoved.flip hmid
  have hresults : List.Forall₂ T moved ds :=
    forall₂_trans (fun c b d ⟨a, ha, hc, hb⟩ hd => hT a ha b c d hb hc hd) hacross hds
  exact ⟨moved, hcs.symm, hresults⟩

end GraphQuery
