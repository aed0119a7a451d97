import Mathlib.Algebra.BigOperators.Group.List.Basic
import Mathlib.Data.List.Nodup
import Mathlib.Data.List.Induction

/-! A map from keys to values as the list of its entries, one for each key, in
no order that matters, and the tally of (key, amount) pairs that is kept in
one. Amounts lie in any commutative monoid. -/

namespace EE360P.KeyedTotals

variable {Key Value Amount : Type} [DecidableEq Key]

def get (key : Key) : List (Key × Value) → Option Value
  | [] => none
  | entry :: rest => if entry.1 = key then some entry.2 else get key rest

def put (key : Key) (value : Value) : List (Key × Value) → List (Key × Value)
  | [] => [(key, value)]
  | entry :: rest =>
      if entry.1 = key then (key, value) :: rest else entry :: put key value rest

theorem get_put (key other : Key) (value : Value) (entries : List (Key × Value)) :
    get other (put key value entries) = if key = other then some value else get other entries := by
  induction entries with
  | nil => rfl
  | cons entry rest ih =>
      by_cases hit : entry.1 = key
      · by_cases same : key = other <;> simp [put, get, hit, same]
      · simp only [put, hit, ↓reduceIte, get, ih]
        by_cases here : entry.1 = other
        · have apart : key ≠ other := fun same => hit (here.trans same.symm)
          simp only [here, apart, ↓reduceIte]
        · simp only [here, ↓reduceIte]

theorem put_keys (key : Key) (value : Value) (entries : List (Key × Value)) :
    (put key value entries).map Prod.fst =
      if key ∈ entries.map Prod.fst then entries.map Prod.fst else entries.map Prod.fst ++ [key] := by
  induction entries with
  | nil => simp [put]
  | cons entry rest ih =>
      by_cases hit : entry.1 = key
      · simp [put, hit]
      · by_cases member : key ∈ rest.map Prod.fst <;>
          simp only [put, hit, Ne.symm hit, ↓reduceIte, List.map_cons, List.mem_cons, ih, member,
            or_true, or_self, List.cons_append]

variable [AddCommMonoid Amount]

/-- `map.put(key, map.containsKey(key) ? map.get(key) + amount : amount)`. -/
def addTo (totals : List (Key × Amount)) (entry : Key × Amount) : List (Key × Amount) :=
  match get entry.1 totals with
  | some sum => put entry.1 (sum + entry.2) totals
  | none => put entry.1 entry.2 totals

def tally (entries : List (Key × Amount)) : List (Key × Amount) := entries.foldl addTo []

def total (entries : List (Key × Amount)) (key : Key) : Amount :=
  (entries.map fun entry => if entry.1 = key then entry.2 else 0).sum

theorem total_append (left right : List (Key × Amount)) (key : Key) :
    total (left ++ right) key = total left key + total right key := by
  simp [total]

theorem total_perm (left right : List (Key × Amount)) (key : Key) (same : left.Perm right) :
    total left key = total right key :=
  (same.map _).sum_eq

theorem total_absent (entries : List (Key × Amount)) (key : Key)
    (absent : key ∉ entries.map Prod.fst) : total entries key = 0 := by
  induction entries with
  | nil => rfl
  | cons entry rest ih =>
      rw [List.map_cons, List.mem_cons, not_or] at absent
      have tail := ih absent.2
      unfold total at tail ⊢
      simp [Ne.symm absent.1, tail]

theorem total_keyed (keys : List Key) (value : Key → Amount) (key : Key) (distinct : keys.Nodup) :
    total (keys.map fun key => (key, value key)) key = if key ∈ keys then value key else 0 := by
  induction keys with
  | nil => rfl
  | cons first rest ih =>
      have tail := ih (List.nodup_cons.mp distinct).2
      have fresh := (List.nodup_cons.mp distinct).1
      simp only [total, List.map_cons, List.sum_cons, List.map_map] at tail ⊢
      rw [tail]
      by_cases same : first = key
      · subst same
        simp [fresh]
      · simp [same, Ne.symm same]

theorem tally_keys (entries : List (Key × Amount)) :
    ((tally entries).map Prod.fst).Nodup ∧
      ∀ key, key ∈ (tally entries).map Prod.fst ↔ key ∈ entries.map Prod.fst := by
  induction entries using List.reverseRecOn with
  | nil => exact ⟨List.nodup_nil, fun key => Iff.rfl⟩
  | append_singleton earlier last ih =>
      have keys : ((tally (earlier ++ [last])).map Prod.fst) =
          if last.1 ∈ (tally earlier).map Prod.fst then (tally earlier).map Prod.fst
          else (tally earlier).map Prod.fst ++ [last.1] := by
        simp only [tally, List.foldl_append, List.foldl_cons, List.foldl_nil, addTo]
        split <;> exact put_keys _ _ _
      rw [keys]
      by_cases member : last.1 ∈ (tally earlier).map Prod.fst
      · rw [if_pos member]
        refine ⟨ih.1, fun key => ?_⟩
        rw [ih.2 key, List.map_append, List.mem_append]
        constructor
        · exact Or.inl
        · rintro (old | new)
          · exact old
          · rw [List.mem_singleton.mp new]
            exact (ih.2 last.1).mp member
      · rw [if_neg member]
        refine ⟨ih.1.append (List.nodup_singleton _) (by simpa using member), fun key => ?_⟩
        rw [List.map_append, List.mem_append, List.mem_append, ih.2 key]
        simp

theorem tally_get (entries : List (Key × Amount)) (key : Key) :
    get key (tally entries) =
      if key ∈ entries.map Prod.fst then some (total entries key) else none := by
  induction entries using List.reverseRecOn with
  | nil => rfl
  | append_singleton earlier last ih =>
      have known := (tally_keys earlier).2 last.1
      have step : get key (tally (earlier ++ [last])) = get key (addTo (tally earlier) last) := by
        simp [tally]
      have sum : total (earlier ++ [last]) key =
          total earlier key + if last.1 = key then last.2 else 0 := by simp [total]
      rw [step, sum, addTo]
      by_cases same : key = last.1
      · subst same
        rw [ih]
        by_cases member : last.1 ∈ earlier.map Prod.fst
        · simp [member, get_put]
        · simp [member, get_put, total_absent earlier last.1 member]
      · have kept : (key ∈ (earlier ++ [last]).map Prod.fst) ↔ key ∈ earlier.map Prod.fst := by
          simp [same]
        simp only [kept, Ne.symm same, ↓reduceIte, add_zero, ← ih]
        split <;> simp only [get_put, Ne.symm same, ↓reduceIte]

end EE360P.KeyedTotals
