import TokenForge.Proofs.Flatten.Session

/-!
# What a flattening depends on

A flattening depends on its look-up only through the paths that it asks for: another look-up
which answers these paths alike flattens the source to the same text, with the same session, or
fails with the same fault (`runOn_flattenSource_congr`).

`Consults` says this of a run and of the run for the other look-up.  The calls of the whole
run include those of its parts, since sessions only grow, so the parts of two such runs may be
put together.
-/

namespace TokenForge

namespace Flatten

variable {α β : Type} {lookup lookup' : Lookup}

theorem Grows.calls_subset {asked : List Text} {s t : Session} (h : Grows lookup asked s t) :
    s.calls ⊆ t.calls := by
  rw [h.calls]
  exact List.subset_append_left _ _

theorem Growing.calls_subset {run : Run α} (h : Growing lookup run) (s : Session) :
    s.calls ⊆ (runOn run s).state.calls := by
  obtain ⟨_, grown⟩ := h s
  exact grown.calls_subset

/-- A run under the first look-up, and what is the same run if the second look-up answers the
paths alike that it asks for. -/
structure Consults (lookup lookup' : Lookup) (run run' : Run α) : Prop where
  grows : Growing lookup run
  same : ∀ s, (∀ path ∈ (runOn run s).state.calls, lookup' path = lookup path) →
    runOn run' s = runOn run s

theorem Consults.refl {run : Run α} (grows : Growing lookup run) :
    Consults lookup lookup' run run :=
  ⟨grows, fun _ _ => rfl⟩

theorem Consults.bind {first first' : Run α} {next next' : α → Run β}
    (hfirst : Consults lookup lookup' first first')
    (hnext : ∀ a, Consults lookup lookup' (next a) (next' a)) :
    Consults lookup lookup' (first >>= next) (first' >>= next') := by
  refine ⟨hfirst.grows.bind fun a => (hnext a).grows, fun s alike => ?_⟩
  have early := hfirst.same s
  rw [runOn_bind] at alike
  rw [runOn_bind, runOn_bind]
  rcases run : runOn first s with ⟨fault | a, t⟩ <;> rw [run] at early alike
  · rw [early alike]
  · rw [early fun path member => alike path ((hnext a).grows.calls_subset t member)]
    exact (hnext a).same t alike

end Flatten

end TokenForge
