import Mathlib.Data.List.Basic

/-!
# Fixed arrays with a fill count

A `Slots α cap` is an array of `cap` cells of which the first `count` are in
use. The cells past the count are never read, so they are not represented. Every
access is checked: a read answers `none` past the count, a write answers `none`
when the cell does not exist.

* `push?` writes cell `count` and advances the count.
* `scan` is the linear search `for (i = 0; i < count; i++)`.
* `compact` is the in-place compaction `a[active++] = a[i]`.

`scan_eq` and `compact_eq` say that these loops never leave the array, and what
they compute.
-/

/-- An array of `cap` cells, the first `used.length` of them in use. -/
structure Slots (α : Type) (cap : Nat) where
  used : List α
  fits : used.length ≤ cap

namespace Slots

variable {α : Type} {cap : Nat}

/-- The fill count. -/
def count (t : Slots α cap) : Nat := t.used.length

/-- The array with no cell in use. -/
def empty : Slots α cap := ⟨[], Nat.zero_le cap⟩

instance : Inhabited (Slots α cap) := ⟨empty⟩

/-- Checked read of cell `i`. -/
def get? (t : Slots α cap) (i : Nat) : Option α :=
  if i < cap then t.used[i]? else none

/-- Checked write of cell `i`, which is already in use. -/
def set? (t : Slots α cap) (i : Nat) (a : α) : Option (Slots α cap) :=
  if i < t.count then some ⟨t.used.set i a, by simpa using t.fits⟩ else none

/-- Checked write of the first free cell, followed by `count++`. -/
def push? (t : Slots α cap) (a : α) : Option (Slots α cap) :=
  if h : t.count < cap then
    some ⟨t.used ++ [a], by simp only [List.length_append, List.length_singleton]; exact h⟩
  else none

/-- `count = n` for an `n` not above the count. -/
def truncate (t : Slots α cap) (n : Nat) : Slots α cap :=
  ⟨t.used.take n, Nat.le_trans (List.length_take_le' _ _) t.fits⟩

@[simp] theorem used_empty : (empty : Slots α cap).used = [] := rfl
@[simp] theorem count_empty : (empty : Slots α cap).count = 0 := rfl

theorem ext_used {t u : Slots α cap} (h : t.used = u.used) : t = u := by
  cases t
  cases u
  simpa using h

theorem count_le (t : Slots α cap) : t.count ≤ cap := t.fits

/-- Reading within the count needs no separate bound on the capacity. -/
@[simp] theorem get?_eq (t : Slots α cap) (i : Nat) : t.get? i = t.used[i]? := by
  unfold get?
  split
  · rfl
  · next h =>
    have := t.fits
    exact (List.getElem?_eq_none (by omega)).symm

theorem set?_of_lt {t : Slots α cap} {i : Nat} (a : α) (h : i < t.count) :
    t.set? i a = some ⟨t.used.set i a, by simpa using t.fits⟩ := if_pos h

theorem push?_of_lt {t : Slots α cap} (a : α) (h : t.count < cap) :
    ∃ u, t.push? a = some u ∧ u.used = t.used ++ [a] := by
  unfold push?
  rw [dif_pos h]
  exact ⟨_, rfl, rfl⟩

theorem push?_eq_none {t : Slots α cap} (a : α) (h : t.count = cap) : t.push? a = none := by
  unfold push?
  rw [dif_neg (by omega)]

/-- `if (count < cap) a[count++] = x;` -/
def pushD (t : Slots α cap) (a : α) : Slots α cap := (t.push? a).getD t

/-- The cells that satisfy `keep`, in order. -/
def filter (t : Slots α cap) (keep : α → Bool) : Slots α cap :=
  ⟨t.used.filter keep, Nat.le_trans (List.length_filter_le _ _) t.fits⟩

/-- Overwrite the first cell that satisfies `p`. -/
def replaceFirst (t : Slots α cap) (p : α → Bool) (a : α) : Slots α cap :=
  ⟨t.used.set (t.used.findIdx p) a, by simpa using t.fits⟩

theorem used_pushD (t : Slots α cap) (a : α) :
    (t.pushD a).used = if t.count < cap then t.used ++ [a] else t.used := by
  unfold pushD push?
  split <;> rfl

/-- Cells are taken in order until the array is full. -/
theorem used_foldl_pushD (t : Slots α cap) (xs : List α) :
    (xs.foldl pushD t).used = (t.used ++ xs).take cap := by
  induction xs generalizing t with
  | nil => rw [List.foldl_nil, List.append_nil, List.take_of_length_le t.fits]
  | cons x xs ih =>
    rw [List.foldl_cons, ih, used_pushD]
    split
    · rw [List.append_assoc, List.singleton_append]
    · next hfull =>
      have hlen : t.used.length = cap := Nat.le_antisymm t.fits (Nat.le_of_not_lt hfull)
      rw [List.take_left' hlen, List.take_left' hlen]

theorem mem_pushD {t : Slots α cap} {a x : α} (h : x ∈ (t.pushD a).used) : x ∈ t.used ∨ x = a := by
  rw [used_pushD] at h
  split at h
  · exact (List.mem_append.mp h).imp_right List.mem_singleton.mp
  · exact .inl h

/-- Appending a cell whose key is absent keeps the keys distinct. -/
theorem nodup_key_pushD {κ : Type} {t : Slots α cap} {a : α} (key : α → κ)
    (h : (t.used.map key).Nodup) (ha : key a ∉ t.used.map key) :
    ((t.pushD a).used.map key).Nodup := by
  rw [used_pushD]
  split
  · rw [List.map_append, List.map_singleton]
    exact List.nodup_append.mpr ⟨h, List.pairwise_singleton _ _, fun x hx y hy hxy =>
      ha (List.mem_singleton.mp hy ▸ hxy ▸ hx)⟩
  · exact h

theorem nodup_pushD {t : Slots α cap} {a : α} (h : t.used.Nodup) (ha : a ∉ t.used) :
    (t.pushD a).used.Nodup := by
  have hmap : ∀ xs : List α, xs.map id = xs := List.map_id
  have hkeys := nodup_key_pushD id ((hmap t.used).symm ▸ h) ((hmap t.used).symm ▸ ha)
  rwa [hmap] at hkeys

@[simp] theorem used_filter (t : Slots α cap) (keep : α → Bool) :
    (t.filter keep).used = t.used.filter keep := rfl

@[simp] theorem used_replaceFirst (t : Slots α cap) (p : α → Bool) (a : α) :
    (t.replaceFirst p a).used = t.used.set (t.used.findIdx p) a := rfl

/-! ## Linear search -/

/-- `for (; n > 0; i++, n--) if (p(a[i])) return i;` with every read checked. -/
def scanLoop (t : Slots α cap) (p : α → Bool) : Nat → Nat → Option (Option Nat)
  | 0, _ => some none
  | n + 1, i => do
    let a ← t.get? i
    if p a then some (some i) else scanLoop t p n (i + 1)

/-- The index of the first used cell that satisfies `p`, if any. -/
def scan (t : Slots α cap) (p : α → Bool) : Option (Option Nat) := scanLoop t p t.count 0

theorem scanLoop_eq (t : Slots α cap) (p : α → Bool) (n i : Nat) (h : i + n = t.count) :
    scanLoop t p n i = some (((t.used.drop i).findIdx? p).map (i + ·)) := by
  induction n generalizing i with
  | zero =>
    have : t.used.drop i = [] := List.drop_eq_nil_of_le (by simp only [count] at h; omega)
    simp [scanLoop, this]
  | succ n ih =>
    have hi : i < t.used.length := by simp only [count] at h; omega
    rw [List.drop_eq_getElem_cons hi, List.findIdx?_cons]
    simp only [scanLoop, get?_eq, List.getElem?_eq_getElem hi, Option.bind_eq_bind,
      Option.bind_some]
    split
    · simp
    · rw [ih (i + 1) (by omega)]
      simp only [Option.map_map]
      congr 2
      funext j
      simp only [Function.comp]
      omega

/-- The search stays inside the array and finds the first match. -/
theorem scan_eq (t : Slots α cap) (p : α → Bool) : t.scan p = some (t.used.findIdx? p) := by
  unfold scan
  rw [scanLoop_eq t p t.count 0 (Nat.zero_add _)]
  simp

/-- A search that has a match answers its index. -/
theorem scan_found {t : Slots α cap} {p : α → Bool} {a : α} (h : t.used.find? p = some a) :
    t.scan p = some (some (t.used.findIdx p)) ∧ t.used.findIdx p < t.count ∧
      t.used[t.used.findIdx p]? = some a := by
  rw [List.find?_eq_getElem?_findIdx] at h
  have hlt : t.used.findIdx p < t.count := (List.getElem?_eq_some_iff.mp h).1
  refine ⟨?_, hlt, h⟩
  rw [scan_eq, List.findIdx?_eq_some_iff_findIdx_eq.mpr ⟨hlt, rfl⟩]

/-- A search without a match answers no index. -/
theorem scan_absent {t : Slots α cap} {p : α → Bool} (h : t.used.find? p = none) :
    t.scan p = some none := by
  rw [scan_eq, List.findIdx?_eq_none_iff.mpr (by simpa using h)]

theorem scan_isSome (t : Slots α cap) (p : α → Bool) :
    ∃ r, t.scan p = some r ∧ r.isSome = t.used.any p := by
  refine ⟨_, scan_eq t p, ?_⟩
  rw [List.findIdx?_isSome]

/-! ## In-place compaction -/

/-- `for (; n > 0; i++, n--) if (keep(a[i])) a[active++] = a[i];` -/
def compactLoop (keep : α → Bool) : Nat → Nat → Nat → Slots α cap → Option (Nat × Slots α cap)
  | 0, _, active, t => some (active, t)
  | n + 1, i, active, t => do
    let a ← t.get? i
    if keep a then
      let t ← t.set? active a
      compactLoop keep n (i + 1) (active + 1) t
    else compactLoop keep n (i + 1) active t

/-- Compaction of the used cells that satisfy `keep`, then `count = active`. -/
def compact (t : Slots α cap) (keep : α → Bool) : Option (Slots α cap) := do
  let (active, t) ← compactLoop keep t.count 0 0 t
  some (t.truncate active)

/-- Loop invariant: the cells below `active` hold the survivors of the first `i`
cells, and the cells from `i` on are untouched. -/
theorem compactLoop_spec (keep : α → Bool) (xs : List α) (n i active : Nat) (t : Slots α cap)
    (hn : i + n = xs.length) (hlen : t.count = xs.length) (ha : active ≤ i)
    (hkept : t.used.take active = (xs.take i).filter keep)
    (hrest : t.used.drop i = xs.drop i) :
    ∃ active' u, compactLoop keep n i active t = some (active', u) ∧
      u.used.take active' = xs.filter keep := by
  induction n generalizing i active t with
  | zero =>
    refine ⟨active, t, rfl, ?_⟩
    rw [hkept, List.take_of_length_le (by omega)]
  | succ n ih =>
    have hi : i < xs.length := by omega
    have hit : i < t.used.length := by simp only [count] at hlen; omega
    have hget : t.used[i]? = some xs[i] := by
      rw [← List.head?_drop, hrest, List.head?_drop, List.getElem?_eq_getElem hi]
    have htake : xs.take (i + 1) = xs.take i ++ [xs[i]] := by rw [List.take_succ_eq_append_getElem hi]
    have hdrop : t.used.drop (i + 1) = xs.drop (i + 1) := by
      rw [← List.drop_drop, hrest, List.drop_drop]
    simp only [compactLoop, get?_eq, hget, Option.bind_eq_bind, Option.bind_some]
    by_cases hk : keep xs[i] = true
    · rw [if_pos hk, set?_of_lt _ (by omega), Option.bind_some]
      refine ih (i + 1) (active + 1) _ (by omega) (by simpa [count] using hlen) (by omega) ?_ ?_
      · rw [List.take_succ_eq_append_getElem (by simp; omega), List.take_set_of_le (Nat.le_refl _),
          hkept, htake, List.filter_append]
        simp [hk]
      · rw [List.drop_set_of_lt (by omega), hdrop]
    · rw [if_neg hk]
      refine ih (i + 1) active t (by omega) hlen (by omega) ?_ hdrop
      rw [hkept, htake, List.filter_append]
      simp [hk]

/-- Compaction stays inside the array and keeps the survivors in order. -/
theorem compact_eq (t : Slots α cap) (keep : α → Bool) : t.compact keep = some (t.filter keep) := by
  obtain ⟨active, u, h, hu⟩ :=
    compactLoop_spec keep t.used t.count 0 0 t (Nat.zero_add _) rfl (Nat.le_refl _) (by simp) rfl
  have he : u.truncate active = t.filter keep := ext_used hu
  simp [compact, h, he]

/-! ## Lookups by key -/

/-- Overwriting the first match with another match is seen by the next lookup. -/
theorem find?_replaceFirst_self {t : Slots α cap} {p : α → Bool} {a b : α}
    (h : t.used.find? p = some b) (ha : p a = true) :
    (t.replaceFirst p a).used.find? p = some a := by
  obtain ⟨_, hlt, _⟩ := scan_found h
  rw [used_replaceFirst, List.find?_eq_some_iff_getElem]
  refine ⟨ha, t.used.findIdx p, by rw [List.length_set]; exact hlt, by simp, ?_⟩
  intro j hj
  have hne : t.used.findIdx p ≠ j := by omega
  rw [List.getElem_set_ne hne]
  simpa using List.not_of_lt_findIdx hj

/-- A lookup that neither the old nor the new cell satisfies is not affected. -/
theorem find?_replaceFirst_other {t : Slots α cap} {p q : α → Bool} {a : α}
    (hq : ∀ x, p x = true → q x = false) (ha : q a = false) :
    (t.replaceFirst p a).used.find? q = t.used.find? q := by
  rw [used_replaceFirst]
  generalize t.used = xs
  induction xs with
  | nil => rfl
  | cons x xs ih =>
    rw [List.findIdx_cons]
    cases hp : p x with
    | true => simp [hq x hp, ha]
    | false =>
      simp only [cond_false, List.set_cons_succ, List.find?_cons]
      cases q x with
      | true => rfl
      | false => exact ih

theorem find?_pushD_self {t : Slots α cap} {p : α → Bool} {a : α} (h : t.used.find? p = none)
    (hroom : t.count < cap) (ha : p a = true) : (t.pushD a).used.find? p = some a := by
  rw [used_pushD, if_pos hroom, List.find?_append, h]
  simp [ha]

theorem find?_pushD_other {t : Slots α cap} {q : α → Bool} {a : α} (ha : q a = false) :
    (t.pushD a).used.find? q = t.used.find? q := by
  rw [used_pushD]
  split
  · rw [List.find?_append]
    simp [ha]
  · rfl

/-- With distinct keys, filtering keeps exactly the lookups whose record survives. -/
theorem find?_filter_key {κ : Type} [DecidableEq κ] (key : α → κ) (k : κ) (keep : α → Bool)
    {xs : List α} (hd : (xs.map key).Nodup) :
    (xs.filter keep).find? (key · = k) = (xs.find? (key · = k)).filter keep := by
  induction xs with
  | nil => rfl
  | cons x xs ih =>
    rw [List.map_cons, List.nodup_cons] at hd
    by_cases hx : key x = k
    · have hrest : xs.find? (key · = k) = none := by
        rw [List.find?_eq_none]
        intro y hy
        simp only [decide_eq_true_eq]
        rintro rfl
        exact hd.1 (List.mem_map.mpr ⟨y, hy, hx.symm ▸ rfl⟩)
      cases hk : keep x with
      | true => simp [hk, hx, Option.filter_some]
      | false =>
        have := ih hd.2
        rw [hrest] at this
        simp [hk, hx, this, Option.filter_some]
    · cases hk : keep x <;> simp [hk, hx, ih hd.2]

/-- Replacing the first match by a cell with the same key keeps the keys. -/
theorem map_key_replaceFirst {κ : Type} {t : Slots α cap} {p : α → Bool} {a b : α}
    (key : α → κ) (h : t.used.find? p = some b) (ha : key a = key b) :
    (t.replaceFirst p a).used.map key = t.used.map key := by
  obtain ⟨_, hlt, hget⟩ := scan_found h
  rw [used_replaceFirst, List.map_set, ha]
  refine List.ext_getElem? fun i => ?_
  rw [List.getElem?_set]
  split
  · next hi => rw [← hi, if_pos (by rw [List.length_map]; exact hlt), List.getElem?_map, hget]; rfl
  · rfl

end Slots
