import GraphQuery.Proofs.Routing

/-! What values, entries and group keys feed to a hasher. Equal ones feed the same, so a hash table
that holds one finds the other. -/

namespace GraphQuery

open Std

/-- One write to a hasher: a discriminant, rank or length, an integer, a bit pattern or a text. -/
inductive HashWrite where
  | tag (n : Nat)
  | int (n : Int)
  | bits (n : Nat)
  | text (s : String)
deriving DecidableEq

def Binary.singleBits (x : Single) : Nat := (if x.negative then Nat.pow 2 31 else 0) + x.word

def Date.feed (d : Date) : List HashWrite := [.int d.year, .tag d.month, .tag d.day]

def Time.feed (t : Time) : List HashWrite :=
  [.tag t.hour, .tag t.minute, .tag t.second, .tag t.nanosecond]

def Geometry.feed (g : Geometry) : List HashWrite := [.tag g.srid.toNat, .text g.wkt]

/-- A real that is an integer feeds the integer, and every NaN the same word. -/
def Number.feed : Number → List HashWrite
  | int n => [.int n.toInt]
  | real x =>
    if x.isNaN then [.bits (Nat.pow 2 64 - 1)]
    else
      match integral? x with
      | some n => [.int n.toInt]
      | none => [.bits x.bits]

def Scalar.feed (s : Scalar) : List HashWrite :=
  .tag s.rank ::
    match s.number? with
    | some n => n.feed
    | none =>
      match s with
      | bool b => [.tag b.toNat]
      | string s => [.text s]
      | date d => d.feed
      | dateTime t => t.date.feed ++ t.time.feed
      | point g | lineString g | polygon g => g.feed
      | floatVector xs => .tag xs.length :: xs.map fun x => .bits x.singleBits
      | _ => []

mutual

def Value.feed : Value → List HashWrite
  | .scalar s => .tag 0 :: s.feed
  | .list items => .tag 1 :: .tag items.length :: feedItems items
  | .map fields => .tag 2 :: .tag fields.length :: feedFields fields
termination_by structural v => v

def feedItems : List Value → List HashWrite
  | [] => []
  | v :: rest => v.feed ++ feedItems rest
termination_by structural items => items

def feedFields : List (String × Value) → List HashWrite
  | [] => []
  | (key, v) :: rest => .text key :: v.feed ++ feedFields rest
termination_by structural fields => fields

end

def EdgeId.feed (e : EdgeId) : List HashWrite := [.int e.source.toInt, .int e.target.toInt, .int e.id.toInt]

def Entry.feed (entry : Entry) : List HashWrite :=
  .tag entry.rank ::
    match entry with
    | constant v => v.feed
    | node id | nodeSnapshot id => [.int id.toInt]
    | relationship e | relationshipSnapshot e => e.feed
    | path edges => .tag edges.length :: edges.flatMap EdgeId.feed
    | unknown => []

def GroupKey.feed : GroupKey → List HashWrite
  | entries es => .tag 0 :: .tag es.length :: es.flatMap Entry.feed
  | text s => [.tag 1, .text s]

namespace Number

theorem feed_of_value {x : Double} {m : Int64} (hv : x.value = m.toInt * Format.double.one)
    (hn : x.isNaN = false) : (real x).feed = (int m).feed := by
  simp [feed, hn, integral?_of_value hv hn]

/-- Reals that are no integers are equal only when they are the same. -/
theorem eq_of_value_eq {x y : Double} (hx : integral? x = none) (hn : x.isNaN = false)
    (hv : x.value = y.value) : x = y := by
  have hzero : x.units ≠ 0 := by
    intro hu
    have hvalue : x.value = (0 : Int64).toInt * Format.double.one := by simp [Binary.value, hu]
    rw [integral?_of_value hvalue hn] at hx
    cases hx
  have hsign : x.negative = y.negative ∧ x.units = y.units := by
    simp only [Binary.value] at hv
    cases hs : x.negative <;> cases ht : y.negative <;> simp only [hs, ht] at hv <;> simp at hv ⊢ <;> omega
  obtain ⟨s, w⟩ := x
  obtain ⟨t, v⟩ := y
  obtain ⟨rfl, hunits⟩ : s = t ∧ _ := hsign
  rw [(Binary.units_strictMono s).injective hunits]

theorem int_key_lt (m : Int64) :
    m.toInt * Format.double.one < ((Binary.infinite false : Double).units : Int) + 1 := by
  have hmax := Int.mul_lt_mul_of_pos_right m.toInt_lt (Int.natCast_pos.mpr Format.double.one_pos)
  have hupper := key_lt_of_number isNaN_bounds.2
  rw [Binary.key_of_number isNaN_bounds.2, value_bounds_exact.2] at hupper
  exact hmax.trans hupper

/-- NaN has the largest key. -/
theorem isNaN_iff_key (x : Double) :
    x.isNaN = true ↔ x.key = ((Binary.infinite false : Double).units : Int) + 1 := by
  refine ⟨Binary.key_of_isNaN, fun hk => ?_⟩
  by_contra hn
  have hlt := key_lt_of_number (Bool.eq_false_of_not_eq_true hn)
  omega

theorem feed_int_eq_real {m : Int64} {x : Double} (hk : m.toInt * Format.double.one = x.key) :
    (int m).feed = (real x).feed := by
  have hn : x.isNaN = false := by
    rw [← Bool.not_eq_true, isNaN_iff_key, ← hk]
    exact (int_key_lt m).ne
  rw [Binary.key_of_number hn] at hk
  exact (feed_of_value hk.symm hn).symm

theorem feed_real_eq_real {x y : Double} (hk : x.key = y.key) : (real x).feed = (real y).feed := by
  have hn : x.isNaN = y.isNaN := by rw [Bool.eq_iff_iff, isNaN_iff_key, isNaN_iff_key, hk]
  cases hx : x.isNaN with
  | true => simp [feed, hx, ← hn]
  | false =>
    have hy : y.isNaN = false := hn ▸ hx
    rw [Binary.key_of_number hx, Binary.key_of_number hy] at hk
    cases hi : integral? x with
    | some m =>
      have hv := integral?_eq_some hi
      rw [feed_of_value hv hx, feed_of_value (hk ▸ hv) hy]
    | none => rw [eq_of_value_eq hi hx hk]

/-- Equal numbers feed the same, whatever their widths. -/
theorem feed_eq_of_compare_eq {a b : Number} (h : a.compare b = .eq) : a.feed = b.feed := by
  rw [compare_eq_key, Int.compare_eq_eq] at h
  cases a with
  | int m =>
    cases b with
    | int n =>
      have hmn : m.toInt = n.toInt :=
        Int.eq_of_mul_eq_mul_right (Int.natCast_pos.mpr Format.double.one_pos).ne' h
      rw [feed, feed, hmn]
    | real y => exact feed_int_eq_real h
  | real x =>
    cases b with
    | int n => exact (feed_int_eq_real h.symm).symm
    | real y => exact feed_real_eq_real h

end Number

instance : LawfulEqCmp (Binary.totalCompare (φ := Format.single)) where
  eq_of_compare h := Binary.totalKey_injective (Int.compare_eq_eq.mp h)

theorem Date.feed_eq_of_compare_eq {a b : Date} (h : a.compare b = .eq) : a.feed = b.feed := by
  simp only [Date.compare, Ordering.then_eq_eq, Int.compare_eq_eq, Nat.compare_eq_eq] at h
  simp only [feed, h]

theorem Time.feed_eq_of_compare_eq {a b : Time} (h : a.compare b = .eq) : a.feed = b.feed := by
  simp only [Time.compare, Ordering.then_eq_eq, Nat.compare_eq_eq] at h
  simp only [feed, h]

theorem Geometry.feed_eq_of_compare_eq {a b : Geometry} (h : a.compare b = .eq) : a.feed = b.feed := by
  rw [Geometry.compare, Ordering.then_eq_eq] at h
  rw [feed, feed, LawfulEqCmp.compare_eq_iff_eq.mp h.1, LawfulEqCmp.compare_eq_iff_eq.mp h.2]

namespace Scalar

theorem rank_eq_of_compare_eq {a b : Scalar} (h : a.compare b = .eq) : a.rank = b.rank := by
  by_contra hne
  rw [compare_across a b hne, Nat.compare_eq_eq] at h
  exact hne h

theorem feed_of_number {a : Scalar} {n : Number} (h : a.number? = some n) :
    a.feed = .tag a.rank :: n.feed := by
  cases a with
  | int8 | int16 | int32 | int64 | float | double =>
    obtain rfl := Option.some.inj h
    rfl
  | _ => cases h

theorem feed_eq_of_equal {a b : Scalar} (h : a.equal b = true) : a.feed = b.feed := by
  rw [equal_iff] at h
  have hrank := rank_eq_of_compare_eq h
  by_cases hn : a.rank = 2
  · obtain ⟨x, hx⟩ := exists_number hn
    obtain ⟨y, hy⟩ := exists_number (hrank ▸ hn)
    rw [compare_of_numbers hx hy] at h
    rw [feed_of_number hx, feed_of_number hy, hrank, Number.feed_eq_of_compare_eq h]
  · cases a <;> cases b <;> simp only [rank, Nat.reduceEqDiff, not_true_eq_false] at hn hrank
    case null.null => rfl
    case bool.bool x y =>
      have hxy : x = y := LawfulEqCmp.compare_eq_iff_eq.mp (show Ord.compare x y = .eq from h)
      rw [hxy]
    case string.string x y =>
      have hxy : x = y := LawfulEqCmp.compare_eq_iff_eq.mp (show Ord.compare x y = .eq from h)
      rw [hxy]
    case date.date x y => exact congrArg (HashWrite.tag 4 :: ·) (Date.feed_eq_of_compare_eq h)
    case dateTime.dateTime x y =>
      obtain ⟨hdate, htime⟩ := Ordering.then_eq_eq.mp h
      exact congrArg (HashWrite.tag 5 :: ·)
        (congrArg₂ (· ++ ·) (Date.feed_eq_of_compare_eq hdate) (Time.feed_eq_of_compare_eq htime))
    case point.point x y => exact congrArg (HashWrite.tag 6 :: ·) (Geometry.feed_eq_of_compare_eq h)
    case lineString.lineString x y => exact congrArg (HashWrite.tag 7 :: ·) (Geometry.feed_eq_of_compare_eq h)
    case polygon.polygon x y => exact congrArg (HashWrite.tag 8 :: ·) (Geometry.feed_eq_of_compare_eq h)
    case floatVector.floatVector xs ys =>
      have hxy : xs = ys :=
        LawfulEqCmp.compare_eq_iff_eq.mp (show compareLists Binary.totalCompare xs ys = .eq from h)
      rw [hxy]

end Scalar

theorem feedItems_eq_of_equal {as : List Value}
    (h : ∀ a ∈ as, ∀ b, a.equal b = true → a.feed = b.feed) {bs : List Value}
    (he : equalItems as bs = true) : as.length = bs.length ∧ feedItems as = feedItems bs := by
  induction as generalizing bs with
  | nil =>
    cases bs with
    | nil => exact ⟨rfl, rfl⟩
    | cons b bs => simp [equalItems] at he
  | cons a as ih =>
    cases bs with
    | nil => simp [equalItems] at he
    | cons b bs =>
      rw [equalItems, Bool.and_eq_true] at he
      obtain ⟨hlength, hfeed⟩ := ih (fun x hx => h x (List.mem_cons_of_mem a hx)) he.2
      rw [feedItems, feedItems, h a (by simp) b he.1, hfeed, List.length_cons, hlength]
      exact ⟨rfl, rfl⟩

theorem feedFields_eq_of_equal {as : List (String × Value)}
    (h : ∀ f ∈ as, ∀ b, f.2.equal b = true → f.2.feed = b.feed) {bs : List (String × Value)}
    (he : equalFields as bs = true) : as.length = bs.length ∧ feedFields as = feedFields bs := by
  induction as generalizing bs with
  | nil =>
    cases bs with
    | nil => exact ⟨rfl, rfl⟩
    | cons g bs => simp [equalFields] at he
  | cons f as ih =>
    cases bs with
    | nil => simp [equalFields] at he
    | cons g bs =>
      obtain ⟨key, v⟩ := f
      obtain ⟨key', w⟩ := g
      simp only [equalFields, Bool.and_eq_true, beq_iff_eq] at he
      obtain ⟨⟨rfl, hv⟩, hrest⟩ := he
      obtain ⟨hlength, hfeed⟩ := ih (fun x hx => h x (List.mem_cons_of_mem _ hx)) hrest
      rw [feedFields, feedFields, h (key, v) (by simp) w hv, hfeed, List.length_cons, hlength]
      exact ⟨rfl, rfl⟩

theorem Value.feed_eq_of_equal {v w : Value} (h : v.equal w = true) : v.feed = w.feed := by
  induction v using Value.induction generalizing w with
  | scalar s =>
    cases w with
    | scalar t =>
      rw [Value.equal] at h
      rw [feed, feed, Scalar.feed_eq_of_equal h]
    | _ => simp [Value.equal] at h
  | list items ih =>
    cases w with
    | list others =>
      rw [Value.equal] at h
      obtain ⟨hlength, hfeed⟩ := feedItems_eq_of_equal (fun v hv b => ih v hv) h
      rw [feed, feed, hlength, hfeed]
    | _ => simp [Value.equal] at h
  | map fields ih =>
    cases w with
    | map others =>
      rw [Value.equal] at h
      obtain ⟨hlength, hfeed⟩ := feedFields_eq_of_equal (fun f hf b => ih f hf) h
      rw [feed, feed, hlength, hfeed]
    | _ => simp [Value.equal] at h

theorem Entry.feed_eq_of_equal {a b : Entry} (h : a.equal b = true) : a.feed = b.feed := by
  cases a <;> cases b <;> simp only [Entry.equal, Bool.false_eq_true, beq_iff_eq] at h
  case constant.constant v w => exact congrArg (HashWrite.tag 0 :: ·) (Value.feed_eq_of_equal h)
  all_goals first | rfl | rw [h]

theorem GroupKey.feed_eq_of_same {k l : GroupKey} (h : k.same l = true) : k.feed = l.feed := by
  cases k with
  | text s =>
    cases l with
    | text t => rw [beq_iff_eq.mp h]
    | entries es => cases h
  | entries es =>
    cases l with
    | text t => cases h
    | entries fs =>
      have hall : es.length = fs.length ∧ es.flatMap Entry.feed = fs.flatMap Entry.feed := by
        have h : equalEntries es fs = true := h
        induction es generalizing fs with
        | nil =>
          cases fs with
          | nil => exact ⟨rfl, rfl⟩
          | cons f fs => simp [equalEntries] at h
        | cons e es ih =>
          cases fs with
          | nil => simp [equalEntries] at h
          | cons f fs =>
            rw [equalEntries, Bool.and_eq_true] at h
            obtain ⟨hlength, hfeed⟩ := ih fs h.2 h.2
            simp [hlength, hfeed, Entry.feed_eq_of_equal h.1]
      rw [feed, feed, hall.1, hall.2]

end GraphQuery
