import Mathlib.Data.List.Nodup
import TokenForge.Assoc

/-!
# Maps built from entries

The map of a list of entries finds under a key what the list has last under it
(`get?_ofPairs`).  Its keys are without duplicates, and entries with such keys are
their own map (`ofPairs_of_nodup`).  The entries under some keys do not depend on the
others (`filter_ofPairs`).
-/

namespace TokenForge

namespace Assoc

variable {α : Type}

/-! ## Look-ups -/

theorem get?_append (m m' : Assoc α) (key : Text) :
    get? (m ++ m') key = (get? m key).or (get? m' key) := by
  induction m with
  | nil => rfl
  | cons e m ih =>
    obtain ⟨k, v⟩ := e
    by_cases hk : k = key
    · simp [get?, hk]
    · simpa [get?, hk] using ih

/-- From the end a look-up finds the last value under a key. -/
theorem get?_reverse (m : Assoc α) (key : Text) :
    get? m.reverse key = ((m.filter fun e => e.1 = key).map Prod.snd).getLast? := by
  induction m with
  | nil => rfl
  | cons e m ih =>
    obtain ⟨k, v⟩ := e
    rw [List.reverse_cons, get?_append, ih]
    by_cases hk : k = key
    · simp [get?, hk, List.getLast?_cons]
    · simp [get?, hk]

theorem get?_foldl_put (entries m : Assoc α) (key : Text) :
    get? (entries.foldl (fun m e => put m e.1 e.2) m) key =
      (get? entries.reverse key).or (get? m key) := by
  induction entries generalizing m with
  | nil => rfl
  | cons e entries ih =>
    rw [List.foldl_cons, ih, get?_put, List.reverse_cons, get?_append, Option.or_assoc]
    congr 1
    obtain ⟨k, v⟩ := e
    by_cases hk : k = key <;> simp [get?, hk]

/-- Of entries with the same key the last one counts. -/
theorem get?_ofPairs (entries : Assoc α) (key : Text) :
    get? (ofPairs entries) key =
      ((entries.filter fun e => e.1 = key).map Prod.snd).getLast? := by
  rw [ofPairs, get?_foldl_put, get?_reverse]
  exact Option.or_none

/-! ## Keys -/

theorem nodup_keys_put {m : Assoc α} (nodup : (keys m).Nodup) (key : Text) (a : α) :
    (keys (put m key a)).Nodup := by
  rw [keys_put]
  split
  · exact nodup
  · rename_i new
    exact nodup.append (List.nodup_singleton key) (by simpa using new)

theorem nodup_keys_merge {m : Assoc α} (nodup : (keys m).Nodup) (entries : Assoc α) :
    (keys (merge m entries)).Nodup := by
  induction entries generalizing m with
  | nil => exact nodup
  | cons e entries ih => exact ih (nodup_keys_put nodup e.1 e.2)

theorem nodup_keys_ofPairs (entries : Assoc α) : (keys (ofPairs entries)).Nodup :=
  @nodup_keys_merge α [] List.nodup_nil entries

theorem mem_keys_reverse {m : Assoc α} {key : Text} : key ∈ keys m.reverse ↔ key ∈ keys m := by
  rw [keys, List.map_reverse, List.mem_reverse, keys]

theorem mem_keys_merge {m entries : Assoc α} {key : Text} :
    key ∈ keys (merge m entries) ↔ key ∈ keys m ∨ key ∈ keys entries := by
  rw [← isSome_get?_iff, merge, get?_foldl_put, Option.isSome_or, Bool.or_eq_true,
    isSome_get?_iff, isSome_get?_iff, mem_keys_reverse, or_comm]

/-- A key that is not there goes to the end. -/
theorem put_of_not_mem {m : Assoc α} {key : Text} (new : key ∉ keys m) (a : α) :
    put m key a = m ++ [(key, a)] := by
  induction m with
  | nil => rfl
  | cons e m ih =>
    obtain ⟨k, v⟩ := e
    rw [keys, List.map_cons, List.mem_cons, not_or] at new
    rw [put_cons, if_neg (Ne.symm new.1), ih new.2, List.cons_append]

/-- Entries without duplicate keys are their own map. -/
theorem ofPairs_of_nodup {entries : Assoc α} (nodup : (keys entries).Nodup) :
    ofPairs entries = entries := by
  suffices ∀ m : Assoc α, (keys (m ++ entries)).Nodup →
      entries.foldl (fun m e => put m e.1 e.2) m = m ++ entries from this [] nodup
  clear nodup
  induction entries with
  | nil => exact fun m _ => (List.append_nil m).symm
  | cons e entries ih =>
    intro m nodup
    have new : e.1 ∉ keys m := by
      intro member
      rw [keys, List.map_append, List.map_cons] at nodup
      exact List.disjoint_of_nodup_append nodup member (.head _)
    rw [List.foldl_cons, put_of_not_mem new, ih]
    · rw [List.append_assoc]
      rfl
    · rwa [List.append_assoc]

/-! ## Entries under some keys -/

theorem filter_put (keep : Text → Bool) (m : Assoc α) (key : Text) (a : α) :
    (put m key a).filter (fun e => keep e.1) =
      if keep key then put (m.filter fun e => keep e.1) key a
      else m.filter fun e => keep e.1 := by
  induction m with
  | nil => cases kept : keep key <;> simp [kept]
  | cons e m ih =>
    obtain ⟨k, v⟩ := e
    by_cases hk : k = key
    · subst hk
      cases kept : keep k <;> simp [put_cons, kept]
    · cases kept : keep k <;> simp [put_cons, hk, kept, ih]
      split <;> rfl

/-- What a map has under some keys is the map of the entries under these keys. -/
theorem filter_ofPairs (keep : Text → Bool) (entries : Assoc α) :
    (ofPairs entries).filter (fun e => keep e.1) =
      ofPairs (entries.filter fun e => keep e.1) := by
  suffices ∀ m : Assoc α,
      (entries.foldl (fun m e => put m e.1 e.2) m).filter (fun e => keep e.1) =
        (entries.filter fun e => keep e.1).foldl (fun m e => put m e.1 e.2)
          (m.filter fun e => keep e.1) from this []
  induction entries with
  | nil => exact fun _ => rfl
  | cons e entries ih =>
    intro m
    rw [List.foldl_cons, ih, filter_put, List.filter_cons]
    cases keep e.1 <;> rfl

end Assoc

end TokenForge
