import Mathlib.Algebra.BigOperators.Group.List.Basic
import Mathlib.Data.List.Nodup
import Mathlib.Data.List.Sort
import Mathlib.Order.MinMax
import Mathlib.Tactic.Abel

/-!
# Tables with a primary key

A `Table ρ` is a list of rows in which no two rows have the same key; the constraint is a
field, so a table that breaks its primary key cannot be built. The operations are the
statements of a relational store:

* `one` / `all`: select the first row, or all rows, with a property;
* `byKey`: select by primary key;
* `insert`: refused where the key is taken;
* `update`: rewrite the row with a given key, refused where there is none;
* `delete`: remove the rows with a property;
* `maxKey`: the largest key.

The lemmas say which rows are there after each statement, and how a sum over the rows
changes (`sumBy_insert`, `sumBy_update`).
-/

universe u v

/-- Rows that carry a primary key. -/
class Keyed (ρ : Type u) (κ : outParam (Type v)) where
  key : ρ → κ

open Keyed (key)

/-- Rows with pairwise distinct keys. -/
structure Table (ρ : Type u) {κ : outParam (Type v)} [Keyed ρ κ] where
  rows : List ρ
  pk : (rows.map key).Nodup

namespace Table

variable {ρ : Type u} {κ : Type v} [Keyed ρ κ] [DecidableEq κ]

/-! ## Statements -/

def empty : Table ρ := ⟨[], List.nodup_nil⟩

def keys (t : Table ρ) : List κ := t.rows.map key

/-- `SELECT … WHERE p LIMIT 1`. -/
def one (t : Table ρ) (p : ρ → Bool) : Option ρ := t.rows.find? p

/-- `SELECT … WHERE p`. -/
def all (t : Table ρ) (p : ρ → Bool) : List ρ := t.rows.filter p

/-- `SELECT … WHERE key = k`. -/
def byKey (t : Table ρ) (k : κ) : Option ρ := t.rows.find? fun r => key r = k

omit [DecidableEq κ] in
/-- A row whose key is new can be put at the end. -/
theorem nodup_concat_key {rows : List ρ} {r : ρ} (h : (rows.map key).Nodup)
    (hr : key r ∉ rows.map key) : ((rows ++ [r]).map key).Nodup := by
  rw [List.map_append, List.nodup_append]
  refine ⟨h, List.nodup_singleton _, ?_⟩
  rintro k hk k' hk' rfl
  simp only [List.map_cons, List.map_nil, List.mem_singleton] at hk'
  exact hr (hk' ▸ hk)

/-- `INSERT`: a row whose key is taken is refused. -/
def insert (t : Table ρ) (r : ρ) : Option (Table ρ) :=
  if h : key r ∈ t.keys then none else some ⟨t.rows ++ [r], nodup_concat_key t.pk h⟩

/-- The rows after rewriting those with key `k`. -/
def rewrite (rows : List ρ) (k : κ) (f : ρ → ρ) : List ρ :=
  rows.map fun r => if key r = k then f r else r

/-- Rewriting a row keeps its key, and so all keys. -/
theorem map_key_rewrite {f : ρ → ρ} (hf : ∀ r, key (f r) = key r) (rows : List ρ) (k : κ) :
    (rewrite rows k f).map key = rows.map key := by
  rw [rewrite, List.map_map]
  refine List.map_congr_left fun r _ => ?_
  simp only [Function.comp_apply]
  split
  · exact hf r
  · rfl

/-- `UPDATE … WHERE key = k`: rewrites the row with key `k`, refused where there is none.
The rewriting keeps the key. -/
def update (t : Table ρ) (k : κ) (f : ρ → ρ) (hf : ∀ r, key (f r) = key r) :
    Option (Table ρ) :=
  if k ∈ t.keys then some ⟨rewrite t.rows k f, (map_key_rewrite hf t.rows k).symm ▸ t.pk⟩
  else none

/-- `UPDATE`: rewrites every row, keeping the keys. -/
def updateAll (t : Table ρ) (f : ρ → ρ) (hf : ∀ r, key (f r) = key r) : Table ρ where
  rows := t.rows.map f
  pk := by
    have h : (t.rows.map f).map key = t.rows.map key := by
      rw [List.map_map]
      exact List.map_congr_left fun r _ => hf r
    exact h ▸ t.pk

/-- `DELETE … WHERE p`. -/
def delete (t : Table ρ) (p : ρ → Bool) : Table ρ where
  rows := t.rows.filter fun r => !p r
  pk := t.pk.sublist (List.filter_sublist.map key)

/-- `SELECT MAX(key)`. -/
def maxKey [Max κ] (t : Table ρ) : Option κ := t.keys.max?

/-- The sum of a column over all rows. -/
def sumBy {M : Type*} [AddMonoid M] (t : Table ρ) (f : ρ → M) : M := (t.rows.map f).sum

/-! ## Selecting -/

omit [DecidableEq κ] in
@[simp] theorem keys_empty : (empty : Table ρ).keys = [] := rfl

omit [DecidableEq κ] in
/-- The keys are those of the rows. -/
theorem mem_keys {t : Table ρ} {k : κ} : k ∈ t.keys ↔ ∃ r ∈ t.rows, key r = k :=
  List.mem_map

omit [DecidableEq κ] in
theorem key_mem_keys {t : Table ρ} {r : ρ} (h : r ∈ t.rows) : key r ∈ t.keys :=
  List.mem_map_of_mem h

omit [DecidableEq κ] in
/-- The primary key: two rows with one key are one row. -/
theorem eq_of_key_eq {t : Table ρ} {r r' : ρ} (h : r ∈ t.rows) (h' : r' ∈ t.rows)
    (hk : key r = key r') : r = r' :=
  List.inj_on_of_nodup_map t.pk h h' hk

/-- The primary key: the rows with the key of a row are that row. -/
theorem filter_key_eq {t : Table ρ} {r : ρ} (h : r ∈ t.rows) :
    t.rows.filter (fun r' => key r' = key r) = [r] := by
  refine List.perm_singleton.mp ((List.perm_ext_iff_of_nodup ?_ (List.nodup_singleton r)).mpr ?_)
  · exact t.pk.of_map.filter _
  · intro r'
    rw [List.mem_filter, decide_eq_true_iff, List.mem_singleton]
    constructor
    · intro ⟨hr', hkey⟩
      exact eq_of_key_eq hr' h hkey
    · rintro rfl
      exact ⟨h, rfl⟩

omit [DecidableEq κ] in
/-- The row that is selected is in the table and has the property. -/
theorem mem_of_one {t : Table ρ} {p : ρ → Bool} {r : ρ} (h : t.one p = some r) :
    r ∈ t.rows ∧ p r = true :=
  ⟨List.mem_of_find?_eq_some h, List.find?_some h⟩

omit [DecidableEq κ] in
/-- Nothing is selected only if no row has the property. -/
theorem one_eq_none {t : Table ρ} {p : ρ → Bool} (h : t.one p = none) :
    ∀ r ∈ t.rows, p r = false := fun r hr => by
  simpa using List.find?_eq_none.mp h r hr

omit [DecidableEq κ] in
/-- All rows with the property are selected, and no others. -/
theorem mem_all {t : Table ρ} {p : ρ → Bool} {r : ρ} : r ∈ t.all p ↔ r ∈ t.rows ∧ p r = true :=
  List.mem_filter

theorem mem_of_byKey {t : Table ρ} {k : κ} {r : ρ} (h : t.byKey k = some r) :
    r ∈ t.rows ∧ key r = k :=
  ⟨List.mem_of_find?_eq_some h, by simpa using List.find?_some h⟩

/-- A row is found under its key, as no other row has it. -/
theorem byKey_of_mem {t : Table ρ} {r : ρ} (h : r ∈ t.rows) : t.byKey (key r) = some r := by
  cases hf : t.byKey (key r) with
  | none => simpa using List.find?_eq_none.mp hf r h
  | some r' =>
    obtain ⟨hmem, hk⟩ := mem_of_byKey hf
    rw [eq_of_key_eq hmem h hk]

/-- Under a key is the row with that key, -/
theorem byKey_eq_some {t : Table ρ} {k : κ} {r : ρ} :
    t.byKey k = some r ↔ r ∈ t.rows ∧ key r = k := by
  constructor
  · exact mem_of_byKey
  · rintro ⟨hr, rfl⟩
    exact byKey_of_mem hr

/-- and nothing if the key is free. -/
theorem byKey_eq_none {t : Table ρ} {k : κ} : t.byKey k = none ↔ k ∉ t.keys := by
  rw [byKey, List.find?_eq_none, mem_keys]
  simp

/-- Two tables with the same row under a key. -/
theorem byKey_congr {t t' : Table ρ} {k : κ}
    (h : ∀ r, key r = k → (r ∈ t'.rows ↔ r ∈ t.rows)) : t'.byKey k = t.byKey k := by
  refine Option.ext fun r => ?_
  rw [byKey_eq_some, byKey_eq_some]
  constructor
  · rintro ⟨hr, hk⟩
    exact ⟨(h r hk).mp hr, hk⟩
  · rintro ⟨hr, hk⟩
    exact ⟨(h r hk).mpr hr, hk⟩

/-! ## Inserting -/

/-- An insert succeeds exactly where the key is free, and puts the row at the end. -/
theorem insert_eq_some {t t' : Table ρ} {r : ρ} :
    t.insert r = some t' ↔ key r ∉ t.keys ∧ t'.rows = t.rows ++ [r] := by
  unfold insert
  split
  · next h => simp [h]
  · next h =>
    rw [Option.some.injEq]
    constructor
    · rintro rfl
      exact ⟨h, rfl⟩
    · rintro ⟨-, hrows⟩
      cases t'
      simpa using hrows.symm

/-- It is refused exactly where the key is taken. -/
theorem insert_eq_none {t : Table ρ} {r : ρ} : t.insert r = none ↔ key r ∈ t.keys := by
  unfold insert
  split <;> simp_all

/-- After an insert there is one row more. -/
theorem mem_insert {t t' : Table ρ} {r x : ρ} (h : t.insert r = some t') :
    x ∈ t'.rows ↔ x ∈ t.rows ∨ x = r := by
  simp [(insert_eq_some.mp h).2]

/-- And one key more. -/
theorem keys_insert {t t' : Table ρ} {r : ρ} (h : t.insert r = some t') :
    t'.keys = t.keys ++ [key r] := by
  simp [keys, (insert_eq_some.mp h).2]

/-- An insert adds what its row adds. -/
theorem sumBy_insert {M : Type*} [AddMonoid M] {t t' : Table ρ} {r : ρ} (f : ρ → M)
    (h : t.insert r = some t') : t'.sumBy f = t.sumBy f + f r := by
  simp [sumBy, (insert_eq_some.mp h).2]

/-! ## Updating -/

/-- An update succeeds exactly where there is such a row. -/
theorem update_eq_some {t t' : Table ρ} {k : κ} {f : ρ → ρ} {hf : ∀ r, key (f r) = key r} :
    t.update k f hf = some t' ↔ k ∈ t.keys ∧ t'.rows = rewrite t.rows k f := by
  unfold update
  split
  · next h =>
    rw [Option.some.injEq]
    constructor
    · rintro rfl
      exact ⟨h, rfl⟩
    · rintro ⟨-, hrows⟩
      cases t'
      simpa using hrows.symm
  · next h => simp [h]

/-- It is refused exactly where there is none. -/
theorem update_eq_none {t : Table ρ} {k : κ} {f : ρ → ρ} {hf : ∀ r, key (f r) = key r} :
    t.update k f hf = none ↔ k ∉ t.keys := by
  unfold update
  split <;> simp_all

/-- The rows after an update: one may be rewritten, the others are as they were. -/
theorem mem_update {t t' : Table ρ} {k : κ} {f : ρ → ρ} {hf : ∀ r, key (f r) = key r} {x : ρ}
    (h : t.update k f hf = some t') :
    x ∈ t'.rows ↔ ∃ r ∈ t.rows, (if key r = k then f r else r) = x := by
  rw [(update_eq_some.mp h).2, rewrite, List.mem_map]

/-- An update keeps the keys. -/
theorem keys_update {t t' : Table ρ} {k : κ} {f : ρ → ρ} {hf : ∀ r, key (f r) = key r}
    (h : t.update k f hf = some t') : t'.keys = t.keys := by
  rw [keys, (update_eq_some.mp h).2, map_key_rewrite hf, keys]

/-- A row under another key is kept. -/
theorem mem_update_of_ne {t t' : Table ρ} {k : κ} {f : ρ → ρ} {hf : ∀ r, key (f r) = key r}
    {x : ρ} (h : t.update k f hf = some t') (hx : x ∈ t.rows) (hne : key x ≠ k) : x ∈ t'.rows :=
  (mem_update h).mpr ⟨x, hx, if_neg hne⟩

/-- What is computed from the columns the update does not touch is the same afterwards. -/
theorem map_update {β : Type*} {t t' : Table ρ} {k : κ} {f : ρ → ρ}
    {hf : ∀ r, key (f r) = key r} (g : ρ → β) (hg : ∀ r, g (f r) = g r)
    (h : t.update k f hf = some t') : t'.rows.map g = t.rows.map g := by
  rw [(update_eq_some.mp h).2, rewrite, List.map_map]
  refine List.map_congr_left fun r _ => ?_
  simp only [Function.comp_apply]
  split
  · exact hg r
  · rfl

/-- An update changes a sum by the difference its own row makes. -/
theorem sumBy_update {M : Type*} [AddCommGroup M] {t t' : Table ρ} {r : ρ} {f : ρ → ρ}
    {hf : ∀ r, key (f r) = key r} (g : ρ → M) (hr : r ∈ t.rows)
    (h : t.update (key r) f hf = some t') : t'.sumBy g = t.sumBy g - g r + g (f r) := by
  have hrows := (update_eq_some.mp h).2
  simp only [sumBy, hrows, rewrite]
  -- by induction on the rows, with the primary key as the invariant
  have hpk := t.pk
  generalize t.rows = rows at hr hpk
  clear h hrows
  induction rows with
  | nil => cases hr
  | cons x rows ih =>
    rw [List.map_cons, List.nodup_cons] at hpk
    simp only [List.map_cons, List.sum_cons, List.map_map] at ih ⊢
    rcases List.mem_cons.mp hr with rfl | hr'
    · -- `r` heads the list: no later row has its key, so the rest is unchanged
      have hrest : rows.map (g ∘ fun x => if key x = key r then f x else x) = rows.map g := by
        refine List.map_congr_left fun y hy => ?_
        have hne : key y ≠ key r := fun he => hpk.1 (he ▸ List.mem_map_of_mem hy)
        simp only [Function.comp_apply, if_neg hne]
      rw [hrest, if_pos rfl]
      abel
    -- `r` comes later, so the head has another key
    · have hne : key x ≠ key r := fun he => hpk.1 (he ▸ List.mem_map_of_mem hr')
      rw [ih hr' hpk.2, if_neg hne]
      abel

/-- The row under a key after an update. -/
theorem byKey_update {t t' : Table ρ} {k i : κ} {f : ρ → ρ} {hf : ∀ r, key (f r) = key r}
    (h : t.update k f hf = some t') :
    t'.byKey i = if i = k then (t.byKey i).map f else t.byKey i := by
  refine Option.ext fun x => ?_
  rw [byKey_eq_some, mem_update h]
  split
  · next hik =>
    rw [Option.map_eq_some_iff]
    constructor
    · rintro ⟨⟨r, hr, rfl⟩, hk⟩
      have hkr : key r = k := by
        split at hk
        · next hkr => exact hkr
        · exact hk.trans hik
      rw [if_pos hkr]
      exact ⟨r, byKey_eq_some.mpr ⟨hr, hkr.trans hik.symm⟩, rfl⟩
    · rintro ⟨r, hr, rfl⟩
      obtain ⟨hr, hkr⟩ := byKey_eq_some.mp hr
      exact ⟨⟨r, hr, if_pos (hkr.trans hik)⟩, (hf r).trans hkr⟩
  · next hik =>
    rw [byKey_eq_some]
    constructor
    · rintro ⟨⟨r, hr, rfl⟩, hk⟩
      by_cases hkr : key r = k
      · rw [if_pos hkr, hf r] at hk
        exact absurd (hk.symm.trans hkr) hik
      · rw [if_neg hkr] at hk ⊢
        exact ⟨hr, hk⟩
    · rintro ⟨hx, hk⟩
      exact ⟨⟨x, hx, if_neg fun h => hik (hk.symm.trans h)⟩, hk⟩

/-- The row under a key after an insert. -/
theorem byKey_insert {t t' : Table ρ} {r : ρ} {i : κ} (h : t.insert r = some t') :
    t'.byKey i = if i = key r then some r else t.byKey i := by
  split
  · next hik =>
    rw [byKey_eq_some, mem_insert h]
    exact ⟨.inr rfl, hik.symm⟩
  · next hik =>
    refine byKey_congr fun x hx => ?_
    rw [mem_insert h, or_iff_left]
    rintro rfl
    exact hik hx.symm

/-! ## One column of one row -/

section
variable {β : Type*} {t t' : Table ρ} {k i : κ} {f : ρ → ρ} {hf : ∀ r, key (f r) = key r}

/-- A column of the row under a key, or `d` where there is no such row. -/
def column (t : Table ρ) (g : ρ → β) (d : β) (k : κ) : β := ((t.byKey k).map g).getD d

/-- The column of a row that is there. -/
theorem column_of_mem {r : ρ} (g : ρ → β) (d : β) (h : r ∈ t.rows) :
    t.column g d (key r) = g r := by
  rw [column, byKey_of_mem h, Option.map_some, Option.getD_some]

/-- An update that writes the column. -/
theorem column_update {g : ρ → β} {d b : β} (h : t.update k f hf = some t')
    (hwrite : ∀ r, g (f r) = b) : t'.column g d i = if i = k then b else t.column g d i := by
  rw [column, byKey_update h]
  by_cases hik : i = k
  · rw [if_pos hik, if_pos hik]
    cases hrow : t.byKey i with
    | none => exact absurd (hik ▸ (update_eq_some.mp h).1) (byKey_eq_none.mp hrow)
    | some r => exact hwrite r
  · rw [if_neg hik, if_neg hik, column]

/-- An update that leaves the column alone. -/
theorem column_update_of_keep {g : ρ → β} {d : β} (h : t.update k f hf = some t')
    (hkeep : ∀ r, g (f r) = g r) : t'.column g d i = t.column g d i := by
  rw [column, byKey_update h, column]
  split
  · cases t.byKey i with
    | none => rfl
    | some r => exact hkeep r
  · rfl

/-- An insert of a row with the default in the column. -/
theorem column_insert {g : ρ → β} {r : ρ} (h : t.insert r = some t') :
    t'.column g (g r) i = t.column g (g r) i := by
  rw [column, byKey_insert h, column]
  split
  · next hik =>
    rw [byKey_eq_none.mpr (hik ▸ (insert_eq_some.mp h).1)]
    rfl
  · rfl

end

/-! ## Rewriting and deleting -/

omit [DecidableEq κ] in
/-- A delete leaves the rows without the property. -/
theorem mem_delete {t : Table ρ} {p : ρ → Bool} {x : ρ} :
    x ∈ (t.delete p).rows ↔ x ∈ t.rows ∧ p x = false := by
  simp [delete]

omit [DecidableEq κ] in
/-- A delete that leaves every key has found no row. -/
theorem delete_eq_self {t : Table ρ} {p : ρ → Bool}
    (hkeys : ∀ k ∈ t.keys, k ∈ (t.delete p).keys) :
    t.delete p = t ∧ ∀ x ∈ t.rows, p x = false := by
  have hnone : ∀ x ∈ t.rows, p x = false := by
    intro x hx
    obtain ⟨y, hy, hkey⟩ := mem_keys.mp (hkeys (key x) (key_mem_keys hx))
    obtain ⟨hy, hpy⟩ := mem_delete.mp hy
    rw [← eq_of_key_eq hy hx hkey]
    exact hpy
  refine ⟨?_, hnone⟩
  obtain ⟨rows, pk⟩ := t
  have hrows : (rows.filter fun r => !p r) = rows :=
    List.filter_eq_self.mpr fun x hx => by rw [hnone x hx]; rfl
  simp only [delete, hrows]

omit [DecidableEq κ] in
/-- An update that changes no row. -/
theorem updateAll_eq_self {t : Table ρ} {f : ρ → ρ} (hf : ∀ r, key (f r) = key r)
    (hsame : ∀ x ∈ t.rows, f x = x) : t.updateAll f hf = t := by
  obtain ⟨rows, pk⟩ := t
  have hrows : rows.map f = rows := by
    rw [List.map_congr_left hsame, List.map_id']
  simp only [updateAll, hrows]

/-! ## The largest key -/

omit [DecidableEq κ] in
/-- No key is larger than the largest. -/
theorem le_of_maxKey [LinearOrder κ] {t : Table ρ} {m k : κ} (h : t.maxKey = some m)
    (hk : k ∈ t.keys) : k ≤ m :=
  (List.max?_le_iff h).mp le_rfl k hk

omit [DecidableEq κ] in
/-- And that one is in the table. -/
theorem mem_of_maxKey [LinearOrder κ] {t : Table ρ} {m : κ} (h : t.maxKey = some m) :
    m ∈ t.keys :=
  List.max?_mem h

omit [DecidableEq κ] in
/-- There is a largest key unless the table is empty. -/
theorem maxKey_eq_none [LinearOrder κ] {t : Table ρ} (h : t.maxKey = none) : t.keys = [] :=
  List.max?_eq_none_iff.mp h

end Table
