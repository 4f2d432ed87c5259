import Mathlib.Data.List.Infix
import TimeTracker.Lib.Json.Access

/-!
# A JSON value as a tree of paths

A database that is one JSON value, in which a path of member names leads to a value inside it.

* `atPath` reads a path, and gives `null` where the path leads nowhere.
* `write` puts a value at a path and makes the objects on the way that are missing; `patch` does
  so for several members of one object.
* **`atPath_write_of_apart`**: a write is not seen at a path that is neither above nor below
  the one that is written.
-/

namespace Json

theorem lookup_append_singleton {α : Type} (members : List (String × α)) (key : String) (x : α)
    (k : String) :
    lookup (members ++ [(key, x)]) k = if key = k then some x else lookup members k := by
  unfold lookup
  rw [List.reverse_append, List.reverse_singleton, List.singleton_append]
  by_cases hk : key = k
  · rw [if_pos hk, List.find?_cons_of_pos (by simpa using hk), Option.map_some]
  · rw [if_neg hk, List.find?_cons_of_neg (by simpa using hk)]

/-- Members of other names do not matter. -/
theorem lookup_filter_ne {α : Type} (members : List (String × α)) {key k : String} (hk : k ≠ key) :
    lookup (members.filter fun member => member.1 ≠ key) k = lookup members k := by
  unfold lookup
  rw [← List.filter_reverse, List.find?_filter]
  congr 2
  funext member
  by_cases hmember : member.1 = k
  · simp [hmember, hk]
  · simp [hmember]

namespace Value

/-! ## Members -/

/-- A member of an object; `null` where there is none. -/
def child (v : Value) (key : String) : Value :=
  match v with
  | .obj members => (lookup members key).getD .null
  | _ => .null

/-- An object with a member set, in the place of whatever was there. -/
def setChild (v : Value) (key : String) (x : Value) : Value :=
  match v with
  | .obj members => .obj (members.filter (fun member => member.1 ≠ key) ++ [(key, x)])
  | _ => .obj [(key, x)]

@[simp] theorem child_setChild_self (v : Value) (key : String) (x : Value) :
    (v.setChild key x).child key = x := by
  cases v with
  | obj members =>
    show (lookup (_ ++ [(key, x)]) key).getD .null = x
    rw [lookup_append_singleton, if_pos rfl, Option.getD_some]
  | _ =>
    show (lookup [(key, x)] key).getD .null = x
    simp [lookup]

@[simp] theorem child_setChild_of_ne (v : Value) {key k : String} (x : Value) (hk : k ≠ key) :
    (v.setChild key x).child k = v.child k := by
  cases v with
  | obj members =>
    show (lookup (_ ++ [(key, x)]) k).getD .null = (lookup members k).getD .null
    rw [lookup_append_singleton, if_neg (Ne.symm hk), lookup_filter_ne members hk]
  | _ =>
    show (lookup [(key, x)] k).getD .null = .null
    simp [lookup, Ne.symm hk]

/-! ## Paths -/

/-- The value a path leads to. -/
def atPath : Value → List String → Value
  | v, [] => v
  | v, key :: path => (v.child key).atPath path

/-- The value with `x` in the place a path leads to. -/
def write : Value → List String → Value → Value
  | _, [], x => x
  | v, key :: path, x => v.setChild key ((v.child key).write path x)

/-- The value with members set in the object a path leads to. -/
def patch (v : Value) (path : List String) (members : List (String × Value)) : Value :=
  members.foldl (fun v member => v.write (path ++ [member.1]) member.2) v

theorem patch_singleton (v : Value) (path : List String) (key : String) (x : Value) :
    v.patch path [(key, x)] = v.write (path ++ [key]) x := rfl

@[simp] theorem atPath_null (path : List String) : atPath .null path = .null := by
  induction path with
  | nil => rfl
  | cons key path ih => exact ih

/-- The members of a missing value are missing. -/
theorem atPath_append (v : Value) (path path' : List String) :
    v.atPath (path ++ path') = (v.atPath path).atPath path' := by
  induction path generalizing v with
  | nil => rfl
  | cons key path ih => exact ih (v.child key)

/-- **What is written is read back.** -/
@[simp] theorem atPath_write_self (v : Value) (path : List String) (x : Value) :
    (v.write path x).atPath path = x := by
  induction path generalizing v with
  | nil => rfl
  | cons key path ih =>
    rw [write, atPath, child_setChild_self]
    exact ih (v.child key)

/-- **A write is not seen** at a path that is neither above nor below it. -/
theorem atPath_write_of_apart (v : Value) {path path' : List String} (x : Value)
    (hbelow : ¬ path <+: path') (habove : ¬ path' <+: path) :
    (v.write path x).atPath path' = v.atPath path' := by
  induction path generalizing v path' with
  | nil => exact absurd List.nil_prefix hbelow
  | cons key path ih =>
    cases path' with
    | nil => exact absurd List.nil_prefix habove
    | cons key' path' =>
      rw [write, atPath, atPath]
      by_cases hkey : key' = key
      · subst hkey
        rw [child_setChild_self]
        apply ih
        · exact fun h => hbelow (List.cons_prefix_cons.mpr ⟨rfl, h⟩)
        · exact fun h => habove (List.cons_prefix_cons.mpr ⟨rfl, h⟩)
      · rw [child_setChild_of_ne v _ hkey]

/-- Above the place of a write there is an object. -/
theorem atPath_write_above (v : Value) (path : List String) (key : String) (rest : List String)
    (x : Value) : (v.write (path ++ key :: rest) x).atPath path ≠ .null := by
  induction path generalizing v with
  | nil =>
    rw [List.nil_append, write, atPath]
    cases v <;> simp [setChild]
  | cons key' path ih =>
    rw [List.cons_append, write, atPath, child_setChild_self]
    exact ih (v.child key')

/-- What is there stays there, unless it is in or below the place of the write. -/
theorem atPath_write_ne_null (v : Value) {path path' : List String} (x : Value)
    (hbelow : ¬ path <+: path') (hthere : v.atPath path' ≠ .null) :
    (v.write path x).atPath path' ≠ .null := by
  by_cases habove : path' <+: path
  · obtain ⟨rest, rfl⟩ := habove
    cases rest with
    | nil => exact absurd (by rw [List.append_nil]) hbelow
    | cons key rest => exact atPath_write_above v path' key rest x
  · rwa [atPath_write_of_apart v x hbelow habove]

end Value

end Json
