import BlockCalc.Proofs.ScreenTexts

/-!
# BlockCalc.Proofs.WordCompletion

Completing the last word of a field. A text is divided into words at its blanks, and everything
about words follows from one equation (`words_append_blank`). A text with words ends in the last of
them and some blanks (`EndsIn`). Where the blanks are none, the last word makes room for the only
candidate that begins with it; where the last of them is the space, nothing is done. Any other
blank at the end is not seen: the candidate is then put after it, and makes one more word.
-/

namespace BlockCalc
namespace Text

/-! ## Words -/

theorem wordsFrom_append_blank {g : Glyph} (hg : g.isBlank = true) (u t : Text) : ∀ w : Text,
    wordsFrom w (t ++ g :: u) = wordsFrom w t ++ words u := by
  induction t with
  | nil =>
    intro w
    simp only [List.nil_append, wordsFrom, hg, if_true]
    split <;> rfl
  | cons h t ih =>
    intro w
    simp only [List.cons_append, wordsFrom, ih]
    split
    · split <;> rfl
    · rfl

theorem words_append_blank {g : Glyph} (hg : g.isBlank = true) (t u : Text) :
    words (t ++ g :: u) = words t ++ words u := wordsFrom_append_blank hg u t []

theorem words_append_blanks {gap : Text} (hgap : Blanks gap) (t : Text) :
    words (t ++ gap) = words t := by
  induction gap generalizing t with
  | nil => rw [List.append_nil]
  | cons g gap ih =>
    obtain ⟨hg, hgap⟩ := List.forall_mem_cons.1 hgap
    have hnone : words gap = [] := ih hgap []
    rw [words_append_blank hg, hnone, List.append_nil]

/-- A word: some glyphs, none of them blank. -/
structure Unbroken (t : Text) : Prop where
  ne_nil : t ≠ []
  not_blank : ∀ g ∈ t, g.isBlank = false

theorem wordsFrom_of_not_blank {t : Text} (ht : ∀ g ∈ t, g.isBlank = false) : ∀ {w : Text},
    w ≠ [] ∨ t ≠ [] → wordsFrom w t = [w.reverse ++ t] := by
  induction t with
  | nil =>
    intro w hw
    rcases hw with hw | hw
    · rw [wordsFrom, if_neg (by simpa using hw), List.append_nil]
    · exact absurd rfl hw
  | cons g t ih =>
    intro w _
    obtain ⟨hg, ht⟩ := List.forall_mem_cons.1 ht
    simp only [wordsFrom, hg, Bool.false_eq_true, if_false, ih ht (.inl (List.cons_ne_nil g w)),
      List.reverse_cons, List.append_assoc, List.singleton_append]

theorem Unbroken.words {t : Text} (h : Unbroken t) : words t = [t] :=
  wordsFrom_of_not_blank h.not_blank (.inr h.ne_nil)

/-- The text `t` is `before`, a word that nothing else stands at, and blanks. -/
structure EndsIn (t before word gap : Text) : Prop where
  split : t = before ++ word ++ gap
  unbroken : Unbroken word
  apart : ∀ g ∈ before.getLast?, g.isBlank = true
  blanks : Blanks gap

theorem words_append_unbroken {before word : Text}
    (hbefore : ∀ g ∈ before.getLast?, g.isBlank = true) (hword : Unbroken word) :
    words (before ++ word) = words before ++ [word] := by
  rcases List.eq_nil_or_concat before with rfl | ⟨rest, g, hbefore'⟩
  · exact hword.words
  · rw [List.concat_eq_append] at hbefore'
    rw [hbefore', List.getLast?_concat] at hbefore
    have hg : Blanks [g] := List.forall_mem_singleton.2 (hbefore g rfl)
    rw [hbefore', List.append_assoc, List.singleton_append, words_append_blank (hbefore g rfl),
      words_append_blanks hg, hword.words]

theorem EndsIn.words {t before word gap : Text} (h : EndsIn t before word gap) :
    words t = words before ++ [word] := by
  rw [h.split, words_append_blanks h.blanks, words_append_unbroken h.apart h.unbroken]

theorem EndsIn.getLast?_words {t before word gap : Text} (h : EndsIn t before word gap) :
    (Text.words t).getLast? = some word := by
  rw [h.words, List.getLast?_concat]

theorem getLast?_dropEndWhile (p : Glyph → Bool) (t : Text) :
    ∀ g ∈ (dropEndWhile p t).getLast?, p g = false := by
  intro g hg
  rw [dropEndWhile, List.getLast?_reverse] at hg
  exact stopsAt_dropWhile p t.reverse g hg

/-- A text with a word ends in one. -/
theorem exists_endsIn {t word : Text} (h : (words t).getLast? = some word) :
    ∃ before gap, EndsIn t before word gap := by
  obtain ⟨gap, hgap, hblanks⟩ := dropEndWhile_split Glyph.isBlank t
  have hstop := getLast?_dropEndWhile Glyph.isBlank t
  generalize dropEndWhile Glyph.isBlank t = core at hgap hstop
  obtain ⟨last, hlast, hunbroken⟩ := dropEndWhile_split (fun g => !g.isBlank) core
  have hapart := getLast?_dropEndWhile (fun g => !g.isBlank) core
  generalize dropEndWhile (fun g => !g.isBlank) core = before at hlast hapart
  have hnot : ∀ g ∈ last, g.isBlank = false := fun g hg => by simpa using hunbroken g hg
  have hbefore : ∀ g ∈ before.getLast?, g.isBlank = true := fun g hg => by simpa using hapart g hg
  have hne : last ≠ [] := by
    rintro rfl
    rw [List.append_nil] at hlast
    -- What is left would end both in a blank and not in one, so nothing is left.
    have hnil : core = [] := by
      cases hcore : core.getLast? with
      | none => exact List.getLast?_eq_none_iff.1 hcore
      | some g =>
        have hblank := hbefore g (by rw [← hlast]; exact hcore)
        rw [hstop g hcore] at hblank
        cases hblank
    rw [hgap, hnil, words_append_blanks hblanks] at h
    cases h
  have hends : EndsIn t before last gap :=
    ⟨by rw [hgap, hlast], ⟨hne, hnot⟩, hbefore, hblanks⟩
  rw [hends.getLast?_words] at h
  cases h
  exact ⟨before, gap, hends⟩

theorem Unbroken.getLast?_append {word : Text} (h : Unbroken word) (before : Text) :
    ∃ g, (before ++ word).getLast? = some g ∧ g.isBlank = false := by
  have hlast : word.getLast? = some (word.getLast h.ne_nil) := List.getLast?_eq_some_getLast _
  refine ⟨word.getLast h.ne_nil, ?_, h.not_blank _ (List.getLast_mem h.ne_nil)⟩
  rw [List.getLast?_append, hlast, Option.some_or]

end Text

/-! ## Candidates -/

theorem IsWord.unbroken {t : Text} (h : IsWord t) : Text.Unbroken t where
  ne_nil := by
    obtain ⟨g, rest, rfl, _⟩ := h
    exact List.cons_ne_nil g rest
  not_blank := by
    intro g hg
    cases hblank : g.isBlank with
    | false => rfl
    | true =>
      have := Glyph.not_isWordPart_of_isBlank hblank
      rw [h.isWordPart g hg] at this
      cases this

/-- The candidate `c` is the only one that begins with `word`. -/
structure Only (candidates : List Text) (word c : Text) : Prop where
  mem : c ∈ candidates
  begins : word <+: c
  unique : ∀ d ∈ candidates, word <+: d → d = c

theorem filter_isPrefixOf_eq_singleton {candidates : List Text} (h : candidates.Nodup)
    {word c : Text} : candidates.filter word.isPrefixOf = [c] ↔ Only candidates word c := by
  have hmem : ∀ d, d ∈ candidates.filter word.isPrefixOf ↔ d ∈ candidates ∧ word <+: d :=
    fun d => by rw [List.mem_filter, List.isPrefixOf_iff_prefix]
  constructor
  · intro hfilter
    obtain ⟨hc, hbegins⟩ := (hmem c).1 (by rw [hfilter]; exact List.mem_singleton_self c)
    refine ⟨hc, hbegins, fun d hd hprefix => ?_⟩
    have := (hmem d).2 ⟨hd, hprefix⟩
    rw [hfilter] at this
    exact List.mem_singleton.1 this
  · intro honly
    have hnodup : (candidates.filter word.isPrefixOf).Nodup := h.filter _
    have hall : ∀ d ∈ candidates.filter word.isPrefixOf, d = c := fun d hd =>
      honly.unique d ((hmem d).1 hd).1 ((hmem d).1 hd).2
    have hin := (hmem c).2 ⟨honly.mem, honly.begins⟩
    generalize candidates.filter word.isPrefixOf = found at hnodup hall hin
    cases found with
    | nil => cases hin
    | cons d rest =>
      obtain ⟨rfl, hrest⟩ := List.forall_mem_cons.1 hall
      cases rest with
      | nil => rfl
      | cons d' rest =>
        have hsame : d' = d := hrest d' List.mem_cons_self
        rw [hsame] at hnodup
        exact absurd List.mem_cons_self (List.nodup_cons.1 hnodup).1

namespace Screen

/-- What the last word can be completed to: the keywords, and the variables of the last program. -/
def candidates (s : Screen) : List Text :=
  ("BEGIN" :: "END" :: s.session.names).map Text.ofString

theorem ofString_inj {x y : String} (h : Text.ofString x = Text.ofString y) : x = y := by
  rw [← Text.toString_ofString x, h, Text.toString_ofString]

theorem nodup_names (s : Session) : s.names.Nodup := by
  unfold Session.names
  split
  · rename_i env _
    exact (List.pairwise_map.2 env.ascending).imp String.ne_of_lt
  · exact List.nodup_nil

variable {s : Screen}

theorem Tidy.isWord_candidate (h : s.Tidy) : ∀ c ∈ s.candidates, IsWord c := by
  intro c hc
  obtain ⟨x, hx, rfl⟩ := List.mem_map.1 hc
  rcases List.mem_cons.1 hx with rfl | hx
  · exact isWord_beginWord
  rcases List.mem_cons.1 hx with rfl | hx
  · exact isWord_endWord
  · exact (h.names x hx).1

theorem Tidy.nodup_candidates (h : s.Tidy) : s.candidates.Nodup := by
  have hwords : ("BEGIN" :: "END" :: s.session.names).Nodup := by
    refine List.nodup_cons.2 ⟨fun hmem => ?_, List.nodup_cons.2 ⟨fun hmem => ?_, nodup_names _⟩⟩
    · rcases List.mem_cons.1 hmem with heq | hmem
      · exact absurd heq (by decide)
      · exact (h.names _ hmem).2.1 rfl
    · exact (h.names _ hmem).2.2 rfl
  exact List.pairwise_map.2 (hwords.imp fun hne heq => hne (ofString_inj heq))

/-! ## What the key does -/

theorem dropEnding_append (before word : Text) : dropEnding word (before ++ word) = before := by
  have hsuffix : word.isSuffixOf (before ++ word) = true :=
    List.isSuffixOf_iff_suffix.2 (List.suffix_append before word)
  rw [dropEnding, if_pos hsuffix, List.length_append, Nat.add_sub_cancel, List.take_left']
  rfl

/-- A word that does not end in a blank is not the ending of a text that does. -/
theorem dropEnding_of_blank {word t : Text} (hword : Text.Unbroken word) {g : Glyph}
    (hlast : t.getLast? = some g) (hg : g.isBlank = true) : dropEnding word t = t := by
  refine if_neg fun hsuffix => ?_
  obtain ⟨before, rfl⟩ := List.isSuffixOf_iff_suffix.1 hsuffix
  obtain ⟨g', hg', hnot⟩ := hword.getLast?_append before
  rw [hlast] at hg'
  cases hg'
  rw [hg] at hnot
  cases hnot

theorem value_complete_of_space (h : s.value.getLast? = some (.char ' ')) :
    s.complete.value = s.value := by
  unfold complete
  rw [h]
  split <;> rfl

theorem value_complete_of_several {word : Text} (hword : (Text.words s.value).getLast? = some word)
    (h : ∀ c, s.completions word ≠ [c]) : s.complete.value = s.value := by
  unfold complete
  rw [hword]
  dsimp only
  split
  · rfl
  · split
    · rfl
    · rename_i c hc
      exact absurd hc (h c)
    · rfl

theorem value_complete_of_one {word c : Text} (hword : (Text.words s.value).getLast? = some word)
    (hspace : s.value.getLast? ≠ some (.char ' ')) (h : s.completions word = [c])
    (hplain : Plain (dropEnding word s.value ++ c)) :
    s.complete.value = dropEnding word s.value ++ c := by
  have hcomplete : s.complete =
      { s with field := (s.field.set (dropEnding word s.value ++ c)).moveToEnd } := by
    unfold complete
    rw [hword]
    dsimp only
    rw [if_neg hspace, h]
  have hvalue : s.complete.value = (s.setValue (dropEnding word s.value ++ c)).value := by
    rw [hcomplete, value, Field.moveToEnd, Field.value_moveTo]
    rfl
  rw [hvalue, hplain.value_setValue]

/-- A screen whose field has room for any candidate after its value. -/
structure Roomy (s : Screen) : Prop where
  tidy : s.Tidy
  value : s.value.length ≤ 400
  names : ∀ x ∈ s.session.names, x.length < 100

variable {before word gap c : Text}

theorem Roomy.plain (h : s.Roomy) {t : Text} (ht : t <+: s.value) (hc : c ∈ s.candidates) :
    Plain (t ++ c) where
  short := by
    have hlength : c.length < 100 := by
      obtain ⟨x, hx, rfl⟩ := List.mem_map.1 hc
      rw [Text.ofString, List.length_map, String.length_toList]
      simp only [List.mem_cons] at hx
      rcases hx with rfl | rfl | hx
      · decide
      · decide
      · exact h.names x hx
    have := h.value
    have := ht.length_le
    rw [List.length_append]
    omega
  shown := by
    intro g hg
    rcases List.mem_append.1 hg with hg | hg
    · exact h.tidy.value g (ht.subset hg)
    · exact (h.tidy.isWord_candidate c hc).showable g hg

theorem Roomy.completions_eq (h : s.Roomy) : s.completions word = [c] ↔ Only s.candidates word c :=
  filter_isPrefixOf_eq_singleton h.tidy.nodup_candidates

/-- After the last word: it makes room for the candidate. -/
theorem Roomy.complete_at_word (h : s.Roomy) (hends : Text.EndsIn s.value before word [])
    (honly : Only s.candidates word c) : s.complete.value = before ++ c := by
  have hsplit : s.value = before ++ word := by rw [hends.split, List.append_nil]
  have hspace : s.value.getLast? ≠ some (.char ' ') := by
    obtain ⟨g, hg, hnot⟩ := hends.unbroken.getLast?_append before
    rw [hsplit, hg]
    rintro ⟨⟩
    exact absurd hnot (by decide)
  have hcut : dropEnding word s.value = before := by rw [hsplit, dropEnding_append]
  rw [value_complete_of_one hends.getLast?_words hspace (h.completions_eq.2 honly), hcut]
  rw [hcut]
  exact h.plain (by rw [hsplit]; exact List.prefix_append before word) honly.mem

/-- After a blank that is not the space: the candidate is put after it. -/
theorem Roomy.complete_at_blank (h : s.Roomy) (hends : Text.EndsIn s.value before word gap)
    (hne : gap ≠ []) (hgap : gap.getLast? ≠ some (.char ' ')) (honly : Only s.candidates word c) :
    s.complete.value = s.value ++ c := by
  have hlast : s.value.getLast? = gap.getLast? := by
    rw [hends.split, List.getLast?_append_of_ne_nil _ hne]
  have hblank : (gap.getLast hne).isBlank = true := hends.blanks _ (List.getLast_mem hne)
  have hcut : dropEnding word s.value = s.value :=
    dropEnding_of_blank hends.unbroken (hlast.trans (List.getLast?_eq_some_getLast hne)) hblank
  rw [value_complete_of_one hends.getLast?_words (by rwa [hlast]) (h.completions_eq.2 honly), hcut]
  rw [hcut]
  exact h.plain (List.prefix_refl _) honly.mem

theorem complete_at_space (hends : Text.EndsIn s.value before word gap)
    (hgap : gap.getLast? = some (.char ' ')) : s.complete.value = s.value := by
  refine value_complete_of_space ?_
  rw [hends.split, List.getLast?_append, hgap, Option.some_or]

theorem Roomy.complete_without (h : s.Roomy)
    (hnone : ∀ before word gap c, Text.EndsIn s.value before word gap →
      ¬ Only s.candidates word c) : s.complete.value = s.value := by
  cases hword : (Text.words s.value).getLast? with
  | none =>
    unfold complete
    rw [hword]
  | some word =>
    obtain ⟨before, gap, hends⟩ := Text.exists_endsIn hword
    exact value_complete_of_several hword fun c hc =>
      hnone before word gap c hends (h.completions_eq.1 hc)

/-- The new value is the old one, or the old one with the word at its end replaced by the only
candidate that begins with it. Either way it has as many words as the old one. -/
structure Completes (candidates : List Text) (old new : Text) : Prop where
  form : new = old ∨ ∃ before word c, Text.EndsIn old before word [] ∧ Only candidates word c ∧
    new = before ++ c
  count : (Text.words new).length = (Text.words old).length

theorem Roomy.words_of_blank (h : s.Roomy) (hends : Text.EndsIn s.value before word gap)
    (hne : gap ≠ []) (honly : Only s.candidates word c) :
    Text.words (s.value ++ c) = Text.words s.value ++ [c] := by
  refine Text.words_append_unbroken ?_ (h.tidy.isWord_candidate c honly.mem).unbroken
  intro g hg
  rw [hends.split, List.getLast?_append_of_ne_nil _ hne] at hg
  exact hends.blanks g (List.mem_of_getLast? hg)

theorem Roomy.completes_at_word (h : s.Roomy) (hends : Text.EndsIn s.value before word [])
    (honly : Only s.candidates word c) : Completes s.candidates s.value s.complete.value where
  form := .inr ⟨before, word, c, hends, honly, h.complete_at_word hends honly⟩
  count := by
    have hunbroken := (h.tidy.isWord_candidate c honly.mem).unbroken
    rw [h.complete_at_word hends honly, Text.words_append_unbroken hends.apart hunbroken,
      hends.words, List.length_append, List.length_append, List.length_singleton,
      List.length_singleton]

theorem completes_of_eq {candidates : List Text} {old new : Text} (h : new = old) :
    Completes candidates old new := ⟨.inl h, by rw [h]⟩

theorem Roomy.completes_iff (h : s.Roomy) : Completes s.candidates s.value s.complete.value ↔
    ∀ before word gap c, Text.EndsIn s.value before word gap → Only s.candidates word c →
      gap = [] ∨ gap.getLast? = some (.char ' ') := by
  constructor
  · intro hcompletes before word gap c hends honly
    by_cases hne : gap = []
    · exact .inl hne
    · refine .inr (Classical.byContradiction fun hgap => ?_)
      have hcount := hcompletes.count
      rw [h.complete_at_blank hends hne hgap honly, h.words_of_blank hends hne honly,
        List.length_append, List.length_singleton] at hcount
      omega
  · intro hgaps
    by_cases hfound : ∃ before word gap c,
        Text.EndsIn s.value before word gap ∧ Only s.candidates word c
    · obtain ⟨before, word, gap, c, hends, honly⟩ := hfound
      rcases hgaps before word gap c hends honly with rfl | hgap
      · exact h.completes_at_word hends honly
      · exact completes_of_eq (complete_at_space hends hgap)
    · exact completes_of_eq (h.complete_without fun before word gap c hends honly =>
        hfound ⟨before, word, gap, c, hends, honly⟩)

/-- In a field with room, the tab key replaces the word at the end of the value by the only
candidate that begins with it, and changes nothing where there is no such candidate or where the
value ends in a space. After any other blank it puts the candidate behind the blank instead, so it
keeps to the last word exactly if the value does not end in such a blank. -/
theorem tab_completes (e : Engine) (prompt : Text) (ms : List Message)
    (hvalue : ((start e prompt).receiveAll ms).value.length ≤ 400)
    (hnames : ∀ x ∈ ((start e prompt).receiveAll ms).session.names, x.length < 100) :
    let s := (start e prompt).receiveAll ms
    let new := (s.receive (.key .tab)).value
    (Completes s.candidates s.value new ↔
      ∀ before word gap c, Text.EndsIn s.value before word gap → Only s.candidates word c →
        gap = [] ∨ gap.getLast? = some (.char ' ')) ∧
    (∀ before word gap c, Text.EndsIn s.value before word gap → Only s.candidates word c →
      (gap = [] → new = before ++ c) ∧
      (gap.getLast? = some (.char ' ') → new = s.value) ∧
      (gap ≠ [] → gap.getLast? ≠ some (.char ' ') → new = s.value ++ c)) ∧
    ((∀ before word gap c, Text.EndsIn s.value before word gap → ¬ Only s.candidates word c) →
      new = s.value) := by
  intro s new
  have hroomy : s.Roomy := ⟨(tidy_start e prompt).receiveAll ms, hvalue, hnames⟩
  refine ⟨hroomy.completes_iff, ?_, hroomy.complete_without⟩
  intro before word gap c hends honly
  refine ⟨?_, complete_at_space hends,
    fun hne hgap => hroomy.complete_at_blank hends hne hgap honly⟩
  rintro rfl
  exact hroomy.complete_at_word hends honly

/-- Of two variables that begin alike only the longer one goes on as the last word does. What stands
before the word stays, a no-break space with it. -/
theorem tab_completes_total :
    let s := (start ⟨256, .truncate⟩ []).receiveAll
      [.value (Text.ofString "BEGIN tot := 1; total := 2 END."), .key .enter,
        .value (Text.ofString "x :=\u00a02*(tot) / tota")]
    s.value.length ≤ 400 ∧ (∀ x ∈ s.session.names, x.length < 100) ∧
      s.candidates = ["BEGIN", "END", "tot", "total"].map Text.ofString ∧
      (s.receive (.key .tab)).value = Text.ofString "x :=\u00a02*(tot) / total" := by
  intro s
  have hstate : s.value = Text.ofString "x :=\u00a02*(tot) / tota" ∧
      s.session.names = ["tot", "total"] := by decide +kernel
  obtain ⟨hvalue, hnames⟩ := hstate
  have hshort : s.value.length ≤ 400 := by rw [hvalue]; decide
  have hlengths : ∀ x ∈ s.session.names, x.length < 100 := by rw [hnames]; decide
  have hcandidates : s.candidates = ["BEGIN", "END", "tot", "total"].map Text.ofString := by
    rw [candidates, hnames]
  have hends : Text.EndsIn s.value (Text.ofString "x :=\u00a02*(tot) / ") (Text.ofString "tota")
      [] := by
    rw [hvalue]
    exact ⟨by decide, ⟨by decide, by decide⟩, by decide, fun g hg => absurd hg List.not_mem_nil⟩
  have honly : Only s.candidates (Text.ofString "tota") (Text.ofString "total") := by
    rw [hcandidates]
    exact ⟨by decide, by decide, by decide⟩
  exact ⟨hshort, hlengths, hcandidates,
    ((tab_completes ⟨256, .truncate⟩ [] _ hshort hlengths).2.1 _ _ _ _ hends honly).1 rfl⟩

/-- A no-break space ends the word before it, but does not keep the key from completing that word:
the value ends in a blank, is changed, and has one word more. -/
theorem tab_overruns_blank :
    let s := (start ⟨256, .truncate⟩ []).receiveAll [.value (Text.ofString "B\u00a0")]
    s.value.length ≤ 400 ∧ (∀ x ∈ s.session.names, x.length < 100) ∧
      (∀ g ∈ s.value.getLast?, g.isBlank = true) ∧
      (s.receive (.key .tab)).value = Text.ofString "B\u00a0BEGIN" ∧
      ¬ Completes s.candidates s.value (s.receive (.key .tab)).value := by
  intro s
  have hstate : s.value.length ≤ 400 ∧ (∀ x ∈ s.session.names, x.length < 100) ∧
      (∀ g ∈ s.value.getLast?, g.isBlank = true) ∧
      (s.receive (.key .tab)).value = Text.ofString "B\u00a0BEGIN" ∧
      (Text.words (s.receive (.key .tab)).value).length ≠ (Text.words s.value).length := by
    decide +kernel
  obtain ⟨hshort, hlengths, hblank, hnew, hcount⟩ := hstate
  exact ⟨hshort, hlengths, hblank, hnew, fun h => hcount h.count⟩

end Screen

end BlockCalc
