import TokenForge.Proofs.Outcome
import TokenForge.Proofs.Version.Order
import TokenForge.Proofs.Version.Written
import TokenForge.Version.Select

/-!
# The newest accepted version

`acceptedBy` answers written versions.  What it answers of texts on one line of ASCII characters
is among these texts, because such a version is written as it is read.  The answers are in
ascending order, so the last one is the newest accepted version (`acceptedBy_newest`).

The texts of a listing are normal forms, which are such lines (`plain_listed`).
-/

namespace TokenForge

namespace Version

/-- The version pragmas of a source ask for a range that a version lies in. -/
def Accepts (source : Text) (v : Version) : Prop :=
  ∃ text range, Pragma.rangeOfSource? source = some text ∧ text ≠ [] ∧
    readRange text = .ok range ∧ range.accepts v = true

/-- One of some texts is a version that a source accepts. -/
def Fits (source : Text) (texts : List Text) (t : Text) (v : Version) : Prop :=
  t ∈ texts ∧ read? t = some v ∧ Accepts source v

/-- Some of the texts is a version that a source accepts. -/
def AnyFits (source : Text) (texts : List Text) : Prop := ∃ t v, Fits source texts t v

/-- One of some texts is a version that a source accepts, and no such version among them is
newer. -/
def Newest (source : Text) (texts : List Text) (t : Text) : Prop :=
  ∃ v, Fits source texts t v ∧ ∀ u w, Fits source texts u w → v.before w = false

/-- The newest of some texts that a source accepts; none, if none of them fits. -/
def IsNewest (source : Text) (texts : List Text) (answer : Option Text) : Prop :=
  (answer = none ↔ ¬ AnyFits source texts) ∧ ∀ t, answer = some t → Newest source texts t

variable {source : Text} {texts answers : List Text}

theorem mem_of_readAll {versions : List Version} (h : readAll texts = .ok versions) (v : Version) :
    v ∈ versions ↔ ∃ t ∈ texts, read? t = some v := by
  rw [mem_of_mapM h]
  refine exists_congr fun t => and_congr_right fun _ => ?_
  cases read? t <;> simp

/-- The answers are the written forms of an ascending list of the versions that fit. -/
theorem acceptedBy_eq_ok (h : acceptedBy source texts = .ok answers) :
    ∃ versions : List Version, answers = versions.map render ∧
      versions.Pairwise (fun v w => v.atMost w = true) ∧
      ∀ v, v ∈ versions ↔ ∃ t, Fits source texts t v := by
  unfold acceptedBy at h
  split at h
  · rename_i none
    cases h
    refine ⟨[], rfl, .nil, fun v => ⟨nofun, ?_⟩⟩
    rintro ⟨_, _, _, text, _, same, _⟩
    rw [none] at same
    cases same
  · rename_i empty
    cases h
    refine ⟨[], rfl, .nil, fun v => ⟨nofun, ?_⟩⟩
    rintro ⟨_, _, _, text, _, same, some_text, _⟩
    rw [empty] at same
    cases same
    exact absurd rfl some_text
  · rename_i text some_text asked
    split at h
    · cases h
    · rename_i range read
      obtain ⟨versions, all, same⟩ := map_eq_ok.mp h
      refine ⟨(sortBy atMost versions).filter range.accepts, same.symm, ?_, fun v => ?_⟩
      · exact (pairwise_sortBy atMost_total (fun _ _ _ => atMost_trans) versions).filter _
      · rw [List.mem_filter, (sortBy_perm _ _).mem_iff, mem_of_readAll all]
        constructor
        · rintro ⟨⟨t, member, written⟩, accepts⟩
          exact ⟨t, member, written, text, range, asked, fun empty => some_text empty, read,
            accepts⟩
        · rintro ⟨t, member, written, text', range', asked', _, read', accepts⟩
          cases asked.symm.trans asked'
          cases read.symm.trans read'
          exact ⟨⟨t, member, written⟩, accepts⟩

theorem acceptedBy_eq_nil_iff (h : acceptedBy source texts = .ok answers) :
    answers = [] ↔ ¬ AnyFits source texts := by
  obtain ⟨versions, rfl, -, fit⟩ := acceptedBy_eq_ok h
  rw [List.map_eq_nil_iff, List.eq_nil_iff_forall_not_mem, AnyFits, not_exists]
  constructor
  · rintro none t ⟨v, fits⟩
    exact none v ((fit v).mpr ⟨t, fits⟩)
  · intro none v member
    obtain ⟨t, fits⟩ := (fit v).mp member
    exact none t ⟨v, fits⟩

/-- Of texts on one line of ASCII characters the last answer is the newest that fits. -/
theorem acceptedBy_newest (plain : ∀ t ∈ texts, Plain t)
    (h : acceptedBy source texts = .ok answers) : IsNewest source texts answers.getLast? := by
  refine ⟨List.getLast?_eq_none_iff.trans (acceptedBy_eq_nil_iff h), fun t answered => ?_⟩
  obtain ⟨versions, rfl, ascending, fit⟩ := acceptedBy_eq_ok h
  rw [List.getLast?_map] at answered
  obtain ⟨v, last, rfl⟩ := Option.map_eq_some_iff.mp answered
  obtain ⟨u, member, written, accepts⟩ := (fit v).mp (List.mem_of_getLast? last)
  have same : v.render = u := render_of_read? (plain u member) written
  rw [same]
  refine ⟨v, ⟨member, written, accepts⟩, fun u' w fits => ?_⟩
  rw [← atMost_iff_not_before]
  exact le_getLast? (fun v => or_self_iff.mp (atMost_total v v)) ascending last w
    ((fit w).mpr ⟨u', fits⟩)

/-! ## Listings -/

theorem plain_of_readListing {versions : List Published} (h : readListing texts = .ok versions) :
    ∀ p ∈ versions, Plain p.render := by
  intro p member
  obtain ⟨t, _, read⟩ := (mem_of_mapM (mapError_eq_ok.mp h) p).mp member
  exact Published.plain_render read

theorem plain_listed (h : listed texts = .ok answers) : ∀ t ∈ answers, Plain t := by
  obtain ⟨versions, read, rfl⟩ := map_eq_ok.mp h
  intro t member
  obtain ⟨p, inside, rfl⟩ := List.mem_map.mp member
  exact plain_of_readListing read p inside

theorem plain_listedInOrder (h : listedInOrder texts = .ok answers) : ∀ t ∈ answers, Plain t := by
  obtain ⟨versions, read, rfl⟩ := map_eq_ok.mp h
  intro t member
  obtain ⟨p, inside, rfl⟩ := List.mem_map.mp member
  exact plain_of_readListing read p ((sortBy_perm _ _).mem_iff.mp inside)

end Version

end TokenForge
