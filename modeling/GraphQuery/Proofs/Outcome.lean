import GraphQuery.Error
import Mathlib.Data.List.Forall2

/-! When computations in sequence, one after the other or over a list, succeed and how they fail. -/

namespace GraphQuery.Outcome

variable {α β : Type} {x : Outcome α} {f : α → Outcome β}

theorem bind_eq_ok {b : β} : x >>= f = .ok b ↔ ∃ a, x = .ok a ∧ f a = .ok b := by
  cases x <;> simp [bind, Except.bind]

theorem bind_eq_error {fault : Error} :
    x >>= f = .error fault ↔ x = .error fault ∨ ∃ a, x = .ok a ∧ f a = .error fault := by
  cases x <;> simp [bind, Except.bind]

theorem map_eq_error {g : α → β} {fault : Error} : x.map g = .error fault ↔ x = .error fault := by
  cases x <;> simp [Except.map]

theorem mapM_nil_eq_ok {bs : List β} : ([] : List α).mapM f = .ok bs ↔ bs = [] := by
  simp [pure, Except.pure, eq_comm]

theorem mapM_cons_eq_ok {a : α} {as : List α} {bs : List β} :
    (a :: as).mapM f = .ok bs ↔ ∃ b rest, f a = .ok b ∧ as.mapM f = .ok rest ∧ bs = b :: rest := by
  simp [List.mapM_cons, bind_eq_ok, pure, Except.pure, @eq_comm _ _ bs]

theorem mapM_cons_eq_error {a : α} {as : List α} {fault : Error} :
    (a :: as).mapM f = .error fault ↔
      f a = .error fault ∨ ∃ b, f a = .ok b ∧ as.mapM f = .error fault := by
  simp [List.mapM_cons, bind_eq_error, pure, Except.pure]

theorem mapM_eq_ok_iff {as : List α} {bs : List β} :
    as.mapM f = .ok bs ↔ List.Forall₂ (fun a b => f a = .ok b) as bs := by
  induction as generalizing bs with
  | nil => rw [mapM_nil_eq_ok, List.forall₂_nil_left_iff]
  | cons a as ih =>
    rw [mapM_cons_eq_ok, List.forall₂_cons_left_iff]
    simp only [ih, exists_and_left]

theorem mapM_congr {g : α → Outcome β} {as : List α} (h : ∀ a ∈ as, f a = g a) : as.mapM f = as.mapM g := by
  induction as with
  | nil => rfl
  | cons a as ih =>
    obtain ⟨hhead, htail⟩ := List.forall_mem_cons.mp h
    rw [List.mapM_cons, List.mapM_cons, hhead, ih htail]

theorem length_of_mapM {as : List α} {bs : List β} (h : as.mapM f = .ok bs) :
    bs.length = as.length :=
  (mapM_eq_ok_iff.mp h).length_eq.symm

/-- Two runs over one list have related results where they have them at each element. -/
theorem forall₂_mapM_iff {γ : Type} {g : α → Outcome γ} {R : β → γ → Prop} {as : List α} {bs : List β}
    {cs : List γ} (hbs : as.mapM f = .ok bs) (hcs : as.mapM g = .ok cs) :
    List.Forall₂ R bs cs ↔ ∀ a ∈ as, ∀ b c, f a = .ok b → g a = .ok c → R b c := by
  induction as generalizing bs cs with
  | nil =>
    obtain rfl := mapM_nil_eq_ok.mp hbs
    obtain rfl := mapM_nil_eq_ok.mp hcs
    simp
  | cons a as ih =>
    obtain ⟨b, bs, hb, hbs', rfl⟩ := mapM_cons_eq_ok.mp hbs
    obtain ⟨c, cs, hc, hcs', rfl⟩ := mapM_cons_eq_ok.mp hcs
    rw [List.forall₂_cons, ih hbs' hcs', List.forall_mem_cons]
    simp [hb, hc]

/-- Every failure has the property. -/
def FailsWith (P : Error → Prop) (x : Outcome α) : Prop := ∀ fault, x = .error fault → P fault

section FailsWith

variable {P Q : Error → Prop}

@[simp]
theorem failsWith_ok (a : α) : FailsWith P (.ok a) := nofun

@[simp]
theorem failsWith_pure (a : α) : FailsWith P (pure a) := nofun

@[simp]
theorem failsWith_error {fault : Error} : FailsWith P (.error fault : Outcome α) ↔ P fault :=
  ⟨fun h => h fault rfl, fun h _ he => Except.error.inj he ▸ h⟩

theorem FailsWith.imp (h : FailsWith P x) (hPQ : ∀ fault, P fault → Q fault) : FailsWith Q x :=
  fun fault hx => hPQ fault (h fault hx)

theorem FailsWith.bind (hx : FailsWith P x) (hf : ∀ a, x = .ok a → FailsWith P (f a)) :
    FailsWith P (x >>= f) := by
  intro fault h
  rcases bind_eq_error.mp h with h | ⟨a, hok, h⟩
  · exact hx fault h
  · exact hf a hok fault h

theorem FailsWith.map (hx : FailsWith P x) (g : α → β) : FailsWith P (x.map g) := by
  cases x with
  | ok a => exact failsWith_ok _
  | error fault => exact failsWith_error.mpr (failsWith_error.mp hx)

end FailsWith

/-- What one computation may give where another one fails. A failure that may meet a result may meet
every failure, since a result need not be the end of the computation. -/
structure Tolerance where
  allows : Option Error → Error → Prop
  later : ∀ fault fault', allows none fault → allows (some fault') fault

namespace Tolerance

def any : Tolerance := ⟨fun _ _ => True, fun _ _ _ => trivial⟩

def none : Tolerance := ⟨fun fault? fault => fault? = some fault, nofun⟩

def only (P : Error → Prop) : Tolerance := ⟨fun _ fault => P fault, fun _ _ h => h⟩

/-- The failures that may meet themselves. -/
def Accepts (T : Tolerance) (fault : Error) : Prop := T.allows (some fault) fault

end Tolerance

def fault? : Outcome α → Option Error
  | .ok _ => none
  | .error fault => some fault

/-- Where `y` succeeds, so does `x`, with a related result; where `y` fails, what `x` gives is
tolerated. -/
structure Related (T : Tolerance) (R : α → β → Prop) (x : Outcome α) (y : Outcome β) : Prop where
  ok : ∀ b, y = .ok b → ∃ a, x = .ok a ∧ R a b
  error : ∀ fault, y = .error fault → T.allows x.fault? fault

namespace Related

variable {γ δ : Type} {T : Tolerance} {R : α → β → Prop} {S : γ → δ → Prop} {y : Outcome β}

theorem of_ok {a : α} {b : β} (h : R a b) : Related T R (.ok a) (.ok b) :=
  ⟨fun _ hb => ⟨a, rfl, Except.ok.inj hb ▸ h⟩, nofun⟩

theorem of_error {fault fault' : Error} (h : T.allows (some fault) fault') :
    Related T R (.error fault) (.error fault') :=
  ⟨nofun, fun _ hb => Except.error.inj hb ▸ h⟩

theorem of_accepted {fault : Error} (h : T.Accepts fault) : Related T R (.error fault) (.error fault) :=
  of_error h

theorem refl (h : FailsWith T.Accepts x) : Related T Eq x x := by
  cases x with
  | ok a => exact of_ok rfl
  | error fault => exact of_accepted (h fault rfl)

theorem imp {R' : α → β → Prop} (h : Related T R x y) (hR : ∀ a b, R a b → R' a b) :
    Related T R' x y :=
  ⟨fun b hb => (h.ok b hb).imp fun a ha => ⟨ha.1, hR a b ha.2⟩, h.error⟩

theorem bind {f : α → Outcome γ} {g : β → Outcome δ} (hx : Related T R x y)
    (hf : ∀ a b, R a b → Related T S (f a) (g b)) : Related T S (x >>= f) (y >>= g) := by
  cases y with
  | ok b =>
    obtain ⟨a, rfl, hab⟩ := hx.ok b rfl
    exact hf a b hab
  | error fault =>
    have hfault := hx.error fault rfl
    refine ⟨nofun, fun fault' h => ?_⟩
    obtain rfl := Except.error.inj h
    cases x with
    | error => exact hfault
    | ok a =>
      change T.allows (f a).fault? fault
      cases f a with
      | ok c => exact hfault
      | error fault' => exact T.later fault fault' hfault

/-- The two computations go on in the same way. -/
theorem bind_left {y : Outcome α} {f : α → Outcome γ} (hx : Related T Eq x y)
    (hf : ∀ a, FailsWith T.Accepts (f a)) : Related T Eq (x >>= f) (y >>= f) :=
  hx.bind fun a _ hab => hab ▸ refl (hf a)

theorem map {f : α → γ} {g : β → δ} (hx : Related T R x y) (hf : ∀ a b, R a b → S (f a) (g b)) :
    Related T S (x.map f) (y.map g) := by
  cases y with
  | ok b =>
    obtain ⟨a, rfl, hab⟩ := hx.ok b rfl
    exact of_ok (hf a b hab)
  | error fault =>
    have hfault := hx.error fault rfl
    refine ⟨nofun, fun fault' he => ?_⟩
    obtain rfl := Except.error.inj he
    cases x with
    | ok a => exact hfault
    | error fault' => exact hfault

theorem mapM {P : γ → δ → Prop} {f : γ → Outcome α} {g : δ → Outcome β} {cs : List γ} {ds : List δ}
    (hcs : List.Forall₂ P cs ds) (h : ∀ c d, P c d → Related T R (f c) (g d)) :
    Related T (List.Forall₂ R) (cs.mapM f) (ds.mapM g) := by
  induction hcs with
  | nil => exact of_ok .nil
  | cons hcd _ ih =>
    rw [List.mapM_cons, List.mapM_cons]
    exact (h _ _ hcd).bind fun a b hab => ih.bind fun as bs hs => of_ok (.cons hab hs)

/-- Both computations run over the same list. -/
theorem mapM_same {f : γ → Outcome α} {g : γ → Outcome β} {cs : List γ}
    (h : ∀ c ∈ cs, Related T R (f c) (g c)) :
    Related T (List.Forall₂ R) (cs.mapM f) (cs.mapM g) := by
  refine mapM (P := fun c d => c = d ∧ c ∈ cs) (List.forall₂_same.mpr fun c hc => ⟨rfl, hc⟩) ?_
  rintro c _ ⟨rfl, hc⟩
  exact h c hc

end Related

/-- Wherever `y` succeeds, so does `x`, with the same result. -/
def Extends (x y : Outcome α) : Prop := ∀ a, y = .ok a → x = .ok a

namespace Related

variable {y : Outcome α}

theorem any_iff : Related .any Eq x y ↔ Extends x y := by
  refine ⟨fun h a ha => ?_, fun h => ⟨fun a ha => ⟨a, h a ha, rfl⟩, fun _ _ => trivial⟩⟩
  obtain ⟨_, hx, rfl⟩ := h.ok a ha
  exact hx

theorem none_iff : Related .none Eq x y ↔ x = y := by
  constructor
  · intro h
    cases y with
    | ok a =>
      obtain ⟨_, hx, rfl⟩ := h.ok a rfl
      exact hx
    | error fault =>
      have hx : x.fault? = some fault := h.error fault rfl
      cases x with
      | ok a => cases hx
      | error fault' => rw [Option.some.inj hx]
  · rintro rfl
    exact refl fun fault _ => rfl

theorem only_iff {P : Error → Prop} : Related (.only P) Eq x x ↔ FailsWith P x :=
  ⟨error, fun h => refl h⟩

end Related

namespace Extends

theorem refl (x : Outcome α) : Extends x x := fun _ h => h

theorem of_eq {y : Outcome α} (h : x = y) : Extends x y := h ▸ refl x

theorem trans {y z : Outcome α} (hxy : Extends x y) (hyz : Extends y z) : Extends x z :=
  fun a h => hxy a (hyz a h)

theorem map {y : Outcome α} (hx : Extends x y) (g : α → β) : Extends (x.map g) (y.map g) :=
  Related.any_iff.mp ((Related.any_iff.mpr hx).map fun _ _ hab => congrArg g hab)

theorem mapM {g : α → Outcome β} {as : List α} (h : ∀ a ∈ as, Extends (f a) (g a)) :
    Extends (as.mapM f) (as.mapM g) := by
  have hall := Related.mapM_same fun a ha => Related.any_iff.mpr (h a ha)
  exact Related.any_iff.mp (hall.imp fun _ _ hs => List.forall₂_eq_eq_eq ▸ hs)

end Extends

end GraphQuery.Outcome
