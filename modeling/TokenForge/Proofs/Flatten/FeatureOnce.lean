import TokenForge.Proofs.Flatten.Expansion
import TokenForge.Proofs.Flatten.FeaturePragma

/-!
# Feature pragmas once

Of the feature pragmas of an inlined text the first one of each feature stays (`firstPieces`).
Whether these are the feature pragmas of the result is another matter, since the result is read
anew: where a pragma is left out, the text before it and the text behind it meet.  A pragma that
shared the line of one that is left out may now begin a line, and a line with nothing but `pragma`
may now go on with what follows.  So the features of the result are at least those of the inlined
text, each in its place, and they are the same where every pragma that is left out is `Separable`
(`flattenSource_featureOnce`).
-/

namespace TokenForge

namespace Flatten

open Text Preamble

variable {on : List Feature} {before : Option Char} {kept covered rest : Text}
  {feature : Feature} {pieces : List (Piece Feature)}

/-! ## First pragmas -/

/-- The pieces without the pragmas of features that are turned on, at first those of a list. -/
def firstPieces : List Feature → List (Piece Feature) → List (Piece Feature)
  | _, [] => []
  | on, .char c :: pieces => .char c :: firstPieces on pieces
  | on, .hit feature covered :: pieces =>
    if feature ∈ on then firstPieces (on ++ [feature]) pieces
    else .hit feature covered :: firstPieces (on ++ [feature]) pieces

/-- The text without the pragmas of features that are turned on. -/
def firstText (on : List Feature) (pieces : List (Piece Feature)) : Text :=
  (firstPieces on pieces).flatMap Piece.text

@[simp]
theorem firstPieces_char (c : Char) :
    firstPieces on (.char c :: pieces) = .char c :: firstPieces on pieces := rfl

theorem firstPieces_repeated (old : feature ∈ on) :
    firstPieces on (.hit feature covered :: pieces) = firstPieces (on ++ [feature]) pieces :=
  if_pos old

theorem firstPieces_new (new : feature ∉ on) :
    firstPieces on (.hit feature covered :: pieces) =
      .hit feature covered :: firstPieces (on ++ [feature]) pieces :=
  if_neg new

@[simp]
theorem firstText_char (c : Char) :
    firstText on (.char c :: pieces) = c :: firstText on pieces := rfl

theorem firstText_repeated (old : feature ∈ on) :
    firstText on (.hit feature covered :: pieces) = firstText (on ++ [feature]) pieces := by
  rw [firstText, firstPieces_repeated old, firstText]

theorem firstText_new (new : feature ∉ on) :
    firstText on (.hit feature covered :: pieces) =
      covered ++ firstText (on ++ [feature]) pieces := by
  rw [firstText, firstPieces_new new]
  rfl

theorem firstPieces_append (on : List Feature) (pieces more : List (Piece Feature)) :
    firstPieces on (pieces ++ more) =
      firstPieces on pieces ++ firstPieces (on ++ found pieces) more := by
  induction pieces generalizing on with
  | nil => simp [firstPieces, found]
  | cons piece pieces ih =>
    cases piece with
    | char c => exact congrArg (.char c :: ·) (ih on)
    | hit feature covered =>
      have later : on ++ [feature] ++ found pieces = on ++ found (.hit feature covered :: pieces) :=
        List.append_assoc ..
      by_cases old : feature ∈ on
      · rw [List.cons_append, firstPieces_repeated old, firstPieces_repeated old, ih, later]
      · rw [List.cons_append, firstPieces_new old, firstPieces_new old, ih, later, List.cons_append]

/-- The text that a flattening goes on with. -/
theorem firstPragmas_eq {on : List Feature} (on' : List Feature)
    (same : ∀ feature, feature ∈ on ↔ feature ∈ on') (pieces : List (Piece Feature)) :
    firstPragmas on pieces = firstText on' pieces := by
  induction pieces generalizing on on' with
  | nil => rfl
  | cons piece pieces ih =>
    cases piece with
    | char c => rw [firstPragmas, firstText_char, ih on' same]
    | hit feature covered =>
      by_cases old : feature ∈ on
      · rw [firstPragmas, if_pos old, firstText_repeated ((same feature).mp old)]
        refine ih _ fun other => ?_
        rw [same, List.mem_append, List.mem_singleton, or_iff_left_of_imp]
        rintro rfl
        exact (same other).mp old
      · rw [firstPragmas, if_neg old, firstText_new fun new => old ((same feature).mpr new)]
        refine congrArg (covered ++ ·) (ih _ fun other => ?_)
        rw [List.mem_append, List.mem_append, same]

/-- The features of the pieces that stay are those of the pieces, but for those turned on. -/
theorem mem_found_firstPieces :
    feature ∈ found (firstPieces on pieces) ↔ feature ∉ on ∧ feature ∈ found pieces := by
  induction pieces generalizing on with
  | nil => simp [firstPieces, found]
  | cons piece pieces ih =>
    cases piece with
    | char c => exact ih
    | hit first covered =>
      have here : feature ∈ found (.hit first covered :: pieces) ↔
          feature = first ∨ feature ∈ found pieces := List.mem_cons
      have stays : feature ∈ found (.hit first covered :: firstPieces (on ++ [first]) pieces) ↔
          feature = first ∨ feature ∈ found (firstPieces (on ++ [first]) pieces) := List.mem_cons
      rw [here]
      by_cases old : first ∈ on
      · rw [firstPieces_repeated old, ih]
        by_cases same : feature = first
        · simp [same, old]
        · simp [same]
      · rw [firstPieces_new old, stays, ih]
        by_cases same : feature = first
        · simp [same, old]
        · simp [same]

/-- No feature is turned on twice. -/
theorem nodup_found_firstPieces (on : List Feature) (pieces : List (Piece Feature)) :
    (found (firstPieces on pieces)).Nodup := by
  induction pieces generalizing on with
  | nil => exact .nil
  | cons piece pieces ih =>
    cases piece with
    | char c => exact ih on
    | hit feature covered =>
      by_cases old : feature ∈ on
      · rw [firstPieces_repeated old]
        exact ih _
      · rw [firstPieces_new old]
        refine List.nodup_cons.mpr ⟨fun later => ?_, ih _⟩
        exact (mem_found_firstPieces.mp later).1 (by simp)

/-! ## What is left out -/

/-- No line of a text is the beginning of a feature pragma that goes on behind the text. -/
def Complete (s : Text) : Prop :=
  ∀ n < s.length, atLineStart (charBefore none (s.take n)) = true → ¬ Begun (s.drop n)

instance (s : Text) : Decidable (Complete s) :=
  Nat.decidableBallLT s.length fun n _ =>
    atLineStart (charBefore none (s.take n)) = true → ¬ Begun (s.drop n)

/-- A pragma can be left out between what is kept so far and what follows: the one does not go on
in the other, and no pragma that shared its line begins the line instead. -/
structure Separable (kept covered : Text) (later : List (Piece Feature)) : Prop where
  complete : Complete kept
  alone : covered.getLast? = some '\n' ∨ featurePragma none (later.flatMap Piece.text) = none

instance (kept covered : Text) (later : List (Piece Feature)) :
    Decidable (Separable kept covered later) :=
  decidable_of_iff (Complete kept ∧
      (covered.getLast? = some '\n' ∨ featurePragma none (later.flatMap Piece.text) = none))
    ⟨fun h => ⟨h.1, h.2⟩, fun h => ⟨h.complete, h.alone⟩⟩

/-- All pragmas that are left out of pieces can be. -/
def AllSeparable : List Feature → Text → List (Piece Feature) → Prop
  | _, _, [] => True
  | on, kept, .char c :: pieces => AllSeparable on (kept ++ [c]) pieces
  | on, kept, .hit feature covered :: pieces =>
    if feature ∈ on then Separable kept covered pieces ∧ AllSeparable (on ++ [feature]) kept pieces
    else AllSeparable (on ++ [feature]) (kept ++ covered) pieces

instance decidableAllSeparable : ∀ (on : List Feature) (kept : Text)
    (pieces : List (Piece Feature)), Decidable (AllSeparable on kept pieces)
  | _, _, [] => .isTrue trivial
  | on, kept, .char c :: pieces => decidableAllSeparable on (kept ++ [c]) pieces
  | on, kept, .hit feature covered :: pieces =>
    have := decidableAllSeparable (on ++ [feature]) kept pieces
    have := decidableAllSeparable (on ++ [feature]) (kept ++ covered) pieces
    inferInstanceAs (Decidable (if feature ∈ on then
      Separable kept covered pieces ∧ AllSeparable (on ++ [feature]) kept pieces
      else AllSeparable (on ++ [feature]) (kept ++ covered) pieces))

theorem AllSeparable.repeated (h : AllSeparable on kept (.hit feature covered :: pieces))
    (old : feature ∈ on) :
    Separable kept covered pieces ∧ AllSeparable (on ++ [feature]) kept pieces := by
  rwa [AllSeparable, if_pos old] at h

theorem AllSeparable.new (h : AllSeparable on kept (.hit feature covered :: pieces))
    (new : feature ∉ on) : AllSeparable (on ++ [feature]) (kept ++ covered) pieces := by
  rwa [AllSeparable, if_neg new] at h

theorem Complete.line {front line : Text} (h : Complete (front ++ line))
    (start : atLineStart (charBefore none front) = true) (some_text : line ≠ []) :
    ¬ Begun line := by
  have shorter : front.length < (front ++ line).length := by
    rw [List.length_append]
    exact Nat.lt_add_of_pos_right (List.length_pos_iff.mpr some_text)
  have within := h front.length shorter
  rw [List.take_left, List.drop_left] at within
  exact within start

/-! ## Up to the first pragma that is left out -/

theorem lined_of_atLineStart (before : Option Char) {s : Text}
    (start : atLineStart (charBefore before s) = true)
    (some_text : s ≠ []) : Lined s := by
  obtain ⟨front, last, rfl⟩ := (List.eq_nil_or_concat s).resolve_left some_text
  rw [List.concat_eq_append, charBefore_append] at start
  obtain rfl : last = '\n' := by simpa [atLineStart] using start
  exact ⟨front, List.concat_eq_append⟩

/-- How much of the text `s` stays as it is: all of it, or the text up to the first pragma that is
left out, where a line begins. -/
inductive Stays (on : List Feature) (before : Option Char) (s : Text) : Prop where
  | all : firstText on (piecesFrom featurePragma 0 before s) = s → Stays on before s
  /-- What is kept up to the end of `read` has no open line, if all pragmas that are left out can
  be. -/
  | part (read : Text) {left right : Text} : s = read ++ left →
    firstText on (piecesFrom featurePragma 0 before s) = read ++ right → AtPragma left →
    atLineStart (charBefore before read) = true →
    (∀ kept, AllSeparable on kept (piecesFrom featurePragma 0 before s) → Complete (kept ++ read)) →
    Stays on before s

theorem stays (on : List Feature) (before : Option Char) (s : Text) : Stays on before s := by
  induction before, s using scan_induction featurePragma_anchored generalizing on with
  | done before => exact .all rfl
  | miss before c s missed ih =>
    have split := piecesFrom_miss missed
    cases ih on with
    | all same => exact .all (by rw [split, firstText_char, same])
    | @part read left right whole text pragma start complete =>
      refine .part (c :: read) (by rw [whole, List.cons_append])
        (by rw [split, firstText_char, text, List.cons_append]) pragma start
        fun kept separable => ?_
      rw [split] at separable
      simpa using complete (kept ++ [c]) separable
  | hit before covered rest feature start some_text hit ih =>
    have split := piecesFrom_hit hit some_text
    by_cases old : feature ∈ on
    · refine .part [] rfl rfl (atPragma_of_hit hit) start fun kept separable => ?_
      rw [split] at separable
      rw [List.append_nil]
      exact (separable.repeated old).1.complete
    cases ih (on ++ [feature]) with
    | all same => exact .all (by rw [split, firstText_new old, same])
    | @part read left right whole text pragma start complete =>
      refine .part (covered ++ read) (by rw [List.append_assoc, ← whole])
        (by rw [split, firstText_new old, text, List.append_assoc]) pragma
        (by rwa [charBefore_append]) fun kept separable => ?_
      rw [split] at separable
      rw [← List.append_assoc]
      exact complete (kept ++ covered) (separable.new old)

/-- A pragma that stays is a pragma in front of what stays of the text behind it, wherever a line
begins. -/
theorem featurePragma_firstText {before' : Option Char} (line : atLineStart before' = true)
    (some_text : covered ≠ [])
    (hit : featurePragma before (covered ++ rest) = some (feature, rest)) (on : List Feature) :
    featurePragma before' (covered ++ firstText on
        (piecesFrom featurePragma 0 (charBefore before covered) rest)) =
      some (feature, firstText on
        (piecesFrom featurePragma 0 (charBefore before covered) rest)) := by
  have begins : atLineStart before = true := (featurePragma_anchored _ _ _ _ hit).1
  rw [featurePragma_congr (line.trans begins.symm)]
  cases stays on (charBefore before covered) rest with
  | all same => rw [same, hit]
  | @part read left right whole text pragma start _ =>
    subst whole
    rw [← charBefore_append] at start
    have lined : Lined (covered ++ read) := lined_of_atLineStart _ start (by simp [some_text])
    rw [← List.append_assoc] at hit
    rw [text, ← List.append_assoc]
    exact featurePragma_other lined pragma hit right

/-- Where no pragma begins, none begins in front of what stays of the text behind. -/
theorem featurePragma_firstText_eq_none {c : Char} {s : Text}
    (missed : featurePragma none (c :: s) = none)
    (start : atLineStart (charBefore none kept) = true)
    (separable : AllSeparable on (kept ++ [c]) (piecesFrom featurePragma 0 (some c) s)) :
    featurePragma none (c :: firstText on (piecesFrom featurePragma 0 (some c) s)) = none := by
  cases stays on (some c) s with
  | all same => rw [same, missed]
  | @part read left right whole text _ start' complete =>
    have line : Complete (kept ++ (c :: read)) := by
      simpa using complete (kept ++ [c]) separable
    have lined : Lined (c :: read) := lined_of_atLineStart none start' (by simp)
    rw [whole, ← List.cons_append] at missed
    rw [text, ← List.cons_append]
    exact featurePragma_other_eq_none lined (line.line start (by simp)) missed right

/-! ## Scanning what stays -/

/-- The pragmas that stay are found again, and in the same order.  `read` is what stays since the
last of them, behind the character `first`. -/
theorem found_firstPieces_sublist (on : List Feature) (before first : Option Char) (read s : Text)
    (start : atLineStart before = true → atLineStart (charBefore first read) = true) :
    (found (firstPieces on (piecesFrom featurePragma 0 before s))).Sublist
      (found (piecesFrom featurePragma 0 first
        (read ++ firstText on (piecesFrom featurePragma 0 before s)))) := by
  induction before, s using scan_induction featurePragma_anchored generalizing on first read with
  | done before => exact List.nil_sublist _
  | miss before c s missed ih =>
    have later := ih on first (read ++ [c]) (by simp)
    rw [piecesFrom_miss missed, firstText_char]
    rwa [List.append_assoc] at later
  | hit before covered rest feature line some_text hit ih =>
    rw [piecesFrom_hit hit some_text]
    by_cases old : feature ∈ on
    · rw [firstPieces_repeated old, firstText_repeated old]
      exact ih _ first read fun _ => start line
    have begins := featurePragma_firstText (start line) some_text hit (on ++ [feature])
    have lined : read = [] ∨ Lined read := by
      by_cases some_read : read = []
      · exact .inl some_read
      · exact .inr (lined_of_atLineStart _ (start line) some_read)
    -- Up to the pragma that stays the scan reads `read` alone, and behind it the text goes on.
    rw [firstPieces_new old, firstText_new old, piecesFrom_append lined (atPragma_of_hit begins),
      found_append, piecesFrom_hit begins some_text]
    refine .trans (.cons_cons feature ?_) (List.sublist_append_right _ _)
    refine ih (on ++ [feature]) _ [] fun start => ?_
    rwa [charBefore_nil, charBefore_eq_getLast? _ some_text,
      ← charBefore_eq_getLast? before some_text]

/-- Where all pragmas that are left out can be, the pieces that stay are the pieces of the text that
stays.  Behind a pragma that is left out the text that stays may be at a line start where the text
itself is not, but then no pragma stands there. -/
theorem piecesFrom_firstText (on : List Feature) (before : Option Char) (kept s : Text)
    (separable : AllSeparable on kept (piecesFrom featurePragma 0 before s))
    (start : atLineStart before = true → atLineStart (charBefore none kept) = true)
    (missed : atLineStart (charBefore none kept) = true →
      atLineStart before = true ∨ featurePragma none s = none) :
    piecesFrom featurePragma 0 (charBefore none kept)
        (firstText on (piecesFrom featurePragma 0 before s)) =
      firstPieces on (piecesFrom featurePragma 0 before s) := by
  induction before, s using scan_induction featurePragma_anchored generalizing on kept with
  | done before => rfl
  | miss before c s none ih =>
    rw [piecesFrom_miss none] at separable ⊢
    have missed : featurePragma (charBefore Option.none kept)
        (c :: firstText on (piecesFrom featurePragma 0 (some c) s)) = Option.none := by
      rw [featurePragma_start, ite_eq_right_iff]
      intro line
      refine featurePragma_firstText_eq_none ?_ line separable
      rcases missed line with line | missed
      · rwa [featurePragma_start, if_pos line] at none
      · exact missed
    have later := ih on (kept ++ [c]) separable (by simp) (by simpa using fun h => .inl h)
    rw [charBefore_append] at later
    rw [firstText_char, piecesFrom_miss missed, firstPieces_char]
    exact congrArg (.char c :: ·) later
  | hit before covered rest feature line some_text hit ih =>
    rw [piecesFrom_hit hit some_text] at separable ⊢
    by_cases old : feature ∈ on
    · obtain ⟨here, separable⟩ := separable.repeated old
      rw [firstText_repeated old, firstPieces_repeated old]
      refine ih _ kept separable (fun _ => start line) fun _ => ?_
      rcases here.alone with last | none
      · rw [charBefore_eq_getLast? _ some_text, last]
        exact .inl rfl
      · rw [piecesFrom_flatMap_text] at none
        exact .inr none
    · have begins := featurePragma_firstText (start line) some_text hit (on ++ [feature])
      have same : charBefore none (kept ++ covered) = charBefore before covered := by
        rw [charBefore_append, charBefore_eq_getLast? _ some_text,
          charBefore_eq_getLast? _ some_text]
      have later := ih (on ++ [feature]) (kept ++ covered) (separable.new old)
        (by rw [same]; exact id) (by rw [same]; exact .inl)
      rw [charBefore_append] at later
      rw [firstText_new old, firstPieces_new old, piecesFrom_hit begins some_text, later]

/-! ## Whole sources -/

/-- The features that a text turns on are found in the text that stays, and are all that is found
in it where the pragmas that are left out can be. -/
theorem hits_tidy (flat : Text) :
    (found (firstPieces [] (Text.pieces featurePragma flat))).Sublist
      (hits featurePragma (tidy [] flat)) ∧
    (AllSeparable [] [] (Text.pieces featurePragma flat) →
      hits featurePragma (tidy [] flat) =
        found (firstPieces [] (Text.pieces featurePragma flat))) := by
  rw [tidy, hits_collapseBlankLines, firstPragmas_eq [] fun _ => Iff.rfl]
  refine ⟨found_firstPieces_sublist [] none none [] flat id, fun separable => ?_⟩
  exact congrArg found (piecesFrom_firstText [] none [] flat separable id .inl)

/-- A source that is flattened is inlined first.  Of the feature pragmas of the inlined text those
stay that are the first of their feature, and then blank lines are collapsed.  The result turns on
what the inlined text does, in the order of the first pragmas: it has these pragmas and perhaps
others, and it has no others, so that none stands in it twice, where all pragmas that are left out
can be. -/
theorem flattenSource_featureOnce (lookup : Lookup) (limit : Int) (source : Text) {out : Text}
    {t : Session} (run : runOn (flattenSource lookup limit source) .empty = ⟨.ok out, t⟩) :
    ∃ flat u, runOn (flatten lookup limit source 0 none) .empty = ⟨.ok flat, u⟩ ∧
      let pieces := Text.pieces featurePragma flat
      let first := firstPieces [] pieces
      out = collapseBlankLines (first.flatMap Piece.text) ∧
      (∀ front feature covered rest, pieces = front ++ .hit feature covered :: rest →
        first = firstPieces [] front ++ (if feature ∈ found front then [] else
          [.hit feature covered]) ++ firstPieces (found front ++ [feature]) rest) ∧
      (found first).Nodup ∧ (∀ feature, feature ∈ found first ↔ feature ∈ hits featurePragma flat) ∧
      (found first).Sublist (hits featurePragma out) ∧
      (AllSeparable [] [] pieces → hits featurePragma out = found first) := by
  simp only [flattenSource, runOn_bind_ok, runOn_pure, Outcome.mk.injEq, Except.ok.injEq] at run
  obtain ⟨flat, u, inlined, text, v, kept, rfl, rfl⟩ := run
  obtain ⟨e, _, rfl, _, features⟩ := expands_of_flattenAt inlined
  obtain ⟨w, again, _⟩ := runOn_keepFirstPragmas (Text.pieces featurePragma e.render) u
  rw [again] at kept
  cases kept
  obtain ⟨stay, only⟩ := hits_tidy e.render
  rw [features]
  refine ⟨e.render, u, inlined, ?_, fun front feature covered rest split => ?_,
    nodup_found_firstPieces _ _, fun feature => ?_, stay, only⟩
  · exact congrArg collapseBlankLines (firstPragmas_eq [] (fun _ => Iff.rfl) _)
  · rw [split, firstPieces_append, List.nil_append, List.append_assoc]
    congr 1
    by_cases old : feature ∈ found front
    · rw [firstPieces_repeated old, if_pos old, List.nil_append]
    · rw [firstPieces_new old, if_neg old, List.singleton_append]
  · rw [mem_found_firstPieces, and_iff_right List.not_mem_nil]
    rfl

/-- A source that turns on a feature. -/
def experimentalSource : Text := "pragma abicoder v2;\nimport \"A.sol\";\n"

/-- A file that turns on the same feature and another one. -/
def experimentalFiles : Assoc Text :=
  [("A.sol", "pragma abicoder v1;\npragma experimental SMTChecker;\n")]

/-- The source with the file in it. -/
def experimentalFlat : Text :=
  "pragma abicoder v2;\npragma abicoder v1;\npragma experimental SMTChecker;\n\n"

/-- The pragma of the importing source and the other one of the file stay, and are all that are
found. -/
theorem flattenSource_featureOnce_experimentalFiles :
    ∃ out t, runOn (flattenSource (Assoc.get? experimentalFiles) 20 experimentalSource) .empty =
        ⟨.ok out, t⟩ ∧ hits featurePragma out = [.abicoder, .smtChecker] := by
  have checked : (runOn (flattenSource (Assoc.get? experimentalFiles) 20
        experimentalSource) .empty).answer =
          .ok "pragma abicoder v2;\npragma experimental SMTChecker;\n\n".toList ∧
      (runOn (flatten (Assoc.get? experimentalFiles) 20 experimentalSource 0 none) .empty).answer =
        .ok experimentalFlat ∧
      AllSeparable [] [] (Text.pieces featurePragma experimentalFlat) ∧
      found (firstPieces [] (Text.pieces featurePragma experimentalFlat)) =
        [.abicoder, .smtChecker] := by
    decide +kernel
  obtain ⟨ends, inlines, separable, first⟩ := checked
  generalize run : runOn (flattenSource (Assoc.get? experimentalFiles) 20
    experimentalSource) .empty = outcome at ends
  obtain ⟨answer, t⟩ := outcome
  cases ends
  obtain ⟨flat, u, inlined, _, _, _, _, _, only⟩ :=
    flattenSource_featureOnce (Assoc.get? experimentalFiles) 20 experimentalSource run
  rw [inlined] at inlines
  obtain rfl : flat = experimentalFlat := Except.ok.inj inlines
  exact ⟨_, t, rfl, (only separable).trans first⟩

/-- Where two pragmas share a line, the second one begins the line once the first is left out. -/
example : (runOn (flattenSource (Assoc.get? []) 20
    "pragma abicoder v2;\npragma abicoder v2; pragma abicoder v2;\n") .empty).answer =
      .ok "pragma abicoder v2;\npragma abicoder v2;\n".toList := by
  decide +kernel

end Flatten

end TokenForge
