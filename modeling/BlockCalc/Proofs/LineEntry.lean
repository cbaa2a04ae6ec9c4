import BlockCalc.Proofs.Conversations
import BlockCalc.Proofs.Detection
import BlockCalc.Proofs.Tiling

/-!
# BlockCalc.Proofs.LineEntry

A program that is entered line by line. Wherever it is cut at the end of a line, what has been
entered begins with its `BEGIN` and lacks its dot. So it is no program yet, since no program goes on
after its end (`Derives.program_prefix`), and the lines to come make one of it: the loop asks for
them (`isIncomplete_of_cut`). With the last line it has a program, and evaluates that.
-/

namespace BlockCalc

open Grammar

/-! ## Tokens and the lines they stand on -/

theorem Cursor.stop_eof (c : Cursor) : ∀ {q : Position}, c.scan.stop = .eof q →
    q = c.pos.past c.rest := by
  induction c using scan_induction with
  | token h ih =>
    intro q hq
    obtain ⟨w, _, hrest, _, _, hpos, hafter⟩ := step_token_iff.1 h
    rw [scan_token h] at hq
    rw [ih hq, hafter, hpos, hrest, Position.past_append, Position.past_append]
  | stop h =>
    intro q hq
    rw [scan_stop h] at hq
    cases hq
    exact (step_eof_iff.1 h).2

theorem Position.Before.line_le {p q : Position} (h : p.Before q) : p.line ≤ q.line := by
  unfold Before at h
  omega

theorem Position.line_le_of_le {p q : Position} (h : p.le q = true) : p.line ≤ q.line := by
  rcases le_iff.1 h with rfl | h
  · exact Int.le_refl _
  · exact h.line_le

/-- The first token stands on the first line and the last token on the last. -/
structure FillsLines (t : Text) : Prop where
  first : (Scan.ofText t).tokens.head?.map (·.pos.line) = some 1
  last : (Scan.ofText t).tokens.getLast?.map (·.pos.line) = some ((Text.lines t).length : Int)

/-- The tokens of a text that is cut at the end of a line are those before the cut, on lines up to
there, and those behind it, on later lines. -/
theorem Tokenized.cut {u v : Text} {ts : List Token} (h : Tokenized (u ++ Text.newline :: v) ts) :
    ∃ us vs, Tokenized u us ∧ ts = us ++ vs ∧
      (∀ t ∈ us, t.pos.line ≤ 1 + u.count Text.newline) ∧
      (∀ t ∈ vs, 1 + u.count Text.newline < t.pos.line) := by
  obtain ⟨q', hscan⟩ := h
  cases hstop : (Scan.ofText u).stop with
  | fault e =>
    have := Cursor.scan_append_fault isBlank_newline v (Cursor.ofText u) hstop
    have hfault : (Scan.ofText (u ++ Text.newline :: v)).stop = .fault e :=
      (congrArg Scan.stop this).trans hstop
    rw [hscan] at hfault
    cases hfault
  | eof q =>
    have happend := Cursor.scan_append_eof isBlank_newline v (Cursor.ofText u) hstop
    have hq : q.line = 1 + u.count Text.newline := by
      rw [Cursor.stop_eof _ hstop]
      exact Position.line_past .start u
    refine ⟨_, _, ⟨q, congrArg (Scan.mk _) hstop⟩,
      congrArg Scan.tokens (hscan.symm.trans happend), ?_, ?_⟩
    · intro t ht
      have hplaces := Scan.ascending_ofText u
      rw [Scan.places, hstop] at hplaces
      rw [← hq]
      exact ((List.pairwise_append.1 hplaces).2.2 _ (List.mem_map_of_mem ht) _
        List.mem_cons_self).line_le
    · intro t ht
      have hle := (Cursor.ascending_scan ⟨v, q.after Text.newline⟩).2 t.pos
        (List.mem_append_left _ (List.mem_map_of_mem ht))
      have hline := Position.line_le_of_le hle
      rw [Position.after, if_pos rfl] at hline
      rw [← hq]
      exact Int.lt_of_add_one_le hline

/-! ## A program that is cut -/

theorem Engine.isIncomplete_of_cut {e : Engine} {u v : Text} {p : Program}
    (h : e.parse (u ++ Text.newline :: v) = .ok p)
    (hfills : FillsLines (u ++ Text.newline :: v)) : e.isIncomplete u = true := by
  obtain ⟨ts, hts, n, _, hd⟩ := Program.parse_eq_ok_iff.1 h
  obtain ⟨us, vs, hus, rfl, hbefore, hafter⟩ := hts.cut
  obtain ⟨q, hq⟩ := hus
  obtain ⟨_, hscan⟩ := hts
  obtain ⟨hfirst, hlast⟩ := hfills
  rw [hscan] at hfirst hlast
  rw [Text.length_lines, List.count_append, List.count_cons_self] at hlast
  -- The first token is before the cut, since those behind it are on later lines.
  have hus : us ≠ [] := by
    rintro rfl
    obtain ⟨w, hw, hline⟩ := Option.map_eq_some_iff.1 hfirst
    have := hafter w (List.mem_of_head? hw)
    omega
  -- The last token is behind the cut, since those before it are on earlier lines.
  have hvs : vs ≠ [] := by
    rintro rfl
    rw [List.append_nil] at hlast
    obtain ⟨w, hw, hline⟩ := Option.map_eq_some_iff.1 hlast
    have := hbefore w (List.mem_of_getLast? hw)
    omega
  have hmode : detectMode u = .program := by
    obtain ⟨w, us', rfl⟩ := List.exists_cons_of_ne_nil hus
    obtain ⟨place, rest, hhead⟩ := hd.program_head
    obtain ⟨rfl, _⟩ := List.cons.inj hhead
    exact detectMode_eq_program.2 ⟨place, us', by rw [hq]⟩
  have hfail : ∀ p', Program.parse e.maxDepth u ≠ .ok p' := by
    intro p' hp'
    obtain ⟨ts', ⟨q', hq'⟩, n', _, hd'⟩ := Program.parse_eq_ok_iff.1 hp'
    obtain rfl : us = ts' := congrArg Scan.tokens (hq.symm.trans hq')
    exact hvs (hd'.program_prefix hd).1
  exact Engine.isIncomplete_iff_atEnd.2 ⟨hmode, Program.rejected_at_end hfail h⟩

theorem Engine.isIncomplete_of_parse {e : Engine} {t : Text} {p : Program}
    (h : e.parse t = .ok p) : e.isIncomplete t = false := by
  rw [← Bool.not_eq_true, Engine.isIncomplete_iff_atEnd]
  rintro ⟨_, q, kinds, herror⟩
  exact absurd (herror.symm.trans h) nofun

/-! ## The loop -/

namespace LineLoop

/-- What is pending, with a line added to it. -/
def source (l : LineLoop) (line : Text) : Text :=
  if l.pending.isEmpty then line else l.pending ++ [Text.newline] ++ line

/-- The loop at its prompt, after it has evaluated an entry. -/
def evaluated (l : LineLoop) (entry : Text) : LineLoop :=
  { l with session := (l.session.evaluate entry).2, pending := [] }

/-- What is done about an entry that is evaluated. -/
def evaluation (l : LineLoop) (entry : Text) : List LineEvent :=
  [.history (Text.oneLine entry), .evaluated entry, told (l.session.evaluate entry).1]

variable {l : LineLoop} {t : Text} {p : Program}

theorem source_append (l : LineLoop) (t rest : Text) :
    l.source (t ++ Text.newline :: rest) = l.source t ++ Text.newline :: rest := by
  unfold source
  split
  · rfl
  · simp

theorem step_line (l : LineLoop) (t : Text) :
    l.step (.line t) =
      if l.session.engine.isIncomplete (l.source t) then
        ([], .again { l with pending := l.source t })
      else l.submit (l.source t) := rfl

theorem step_unfinished (h : l.session.engine.isIncomplete (l.source t) = true) :
    l.step (.line t) = ([], .again { l with pending := l.source t }) := by
  rw [step_line, if_pos h]

theorem step_finished (h : l.session.engine.parse (l.source t) = .ok p) :
    l.step (.line t) = (l.evaluation (Text.trim (l.source t)),
      .again (l.evaluated (Text.trim (l.source t)))) := by
  rw [step_line, if_neg (by simp [Engine.isIncomplete_of_parse h]), submit]
  have hhead := trim_head_of_program (Engine.detectMode_of_parse h)
  generalize Text.trim (l.source t) = entry at hhead ⊢
  -- The entry begins with its `BEGIN`: it is neither blank nor a command.
  obtain ⟨rest, rfl⟩ := List.head?_eq_some_iff.1 hhead
  have hcolon : (Glyph.char 'B' :: rest).head? ≠ some (.char ':') := by simp
  simp only [List.isEmpty_cons, Bool.false_eq_true, if_false, hcolon]
  rfl

theorem source_ne_nil (h : l.session.engine.isIncomplete (l.source t) = true) :
    l.source t ≠ [] := by
  intro hnil
  rw [hnil] at h
  have hhead := trim_head_of_program (Engine.isIncomplete_iff_atEnd.1 h).1
  cases hhead

/-- The lines that make a program of what is pending: all but the first are asked for as the rest
of one that has begun, and with the last of them it is evaluated. -/
theorem run_source (more : List LineInput) (v : Text) : ∀ {l : LineLoop},
    l.session.engine.parse (l.source v) = .ok p → FillsLines (l.source v) →
    l.run ((Text.lines v).map .line ++ more) =
      let entry := Text.trim (l.source v)
      let rest := (l.evaluated entry).run more
      { rest with
        events := .prompt l.currentPrompt ::
          (List.replicate ((Text.lines v).length - 1)
              (.prompt (Text.ofString continuationPrompt)) ++
            (l.evaluation entry ++ rest.events)) } := by
  -- The loop changes with every line; what is pending and what is to come stay the same text.
  induction v using Text.lines_induction with
  | @last t ht =>
    intro l h _
    rw [Text.lines_of_no_newline ht, List.map_cons, List.map_nil, List.singleton_append, run,
      step_finished h]
    rfl
  | @line t rest ht ih =>
    intro l h hfills
    rw [source_append] at h hfills ⊢
    have hinc := Engine.isIncomplete_of_cut h hfills
    have hne := source_ne_nil hinc
    have hsource : source { l with pending := l.source t } rest =
        l.source t ++ Text.newline :: rest := by
      rw [source, if_neg (by simpa using hne), List.append_assoc]
      rfl
    have hprompt : currentPrompt { l with pending := l.source t } =
        Text.ofString continuationPrompt := if_neg (by simpa using hne)
    have hrun := @ih { l with pending := l.source t } (by rw [hsource]; exact h)
      (by rw [hsource]; exact hfills)
    rw [hsource, hprompt] at hrun
    rw [Text.lines_append ht, List.map_cons, List.cons_append, run, step_unfinished hinc]
    simp only [hrun, List.length_cons, Text.length_lines, Nat.add_sub_cancel,
      List.replicate_succ]
    rfl

/-- A program that begins on its first line and ends on its last is entered by its lines: the first
is read at the prompt of the loop, the others at the prompt for more, and with the last the program,
trimmed, is recorded and evaluated once. The loop then stands where it began and reads on. -/
theorem run_program_lines (hidle : l.pending = []) (h : l.session.engine.parse t = .ok p)
    (hfills : FillsLines t) (more : List LineInput) :
    let entry := Text.trim t
    let rest := (l.evaluated entry).run more
    (l.evaluated entry).pending = [] ∧
    l.run ((Text.lines t).map .line ++ more) =
      { rest with
        events := .prompt l.prompt ::
          (List.replicate ((Text.lines t).length - 1)
              (.prompt (Text.ofString continuationPrompt)) ++
            ([.history (Text.oneLine entry), .evaluated entry,
              told (l.session.evaluate entry).1] ++ rest.events)) } := by
  have hsource : l.source t = t := if_pos (by rw [hidle]; rfl)
  have hprompt : l.currentPrompt = l.prompt := if_pos (by rw [hidle]; rfl)
  have hrun := run_source (l := l) (p := p) more t (by rwa [hsource]) (by rwa [hsource])
  rw [hsource, hprompt] at hrun
  exact ⟨rfl, hrun⟩

/-- The lines are cut within a group and within a term, one of them is blank, and blanks follow the
dot. -/
theorem run_program_lines_group :
    let l := start ⟨2, .truncate⟩ (Text.ofString "> ")
    let t := Text.ofString "BEGIN a := (4\n\n+ 1); b := a *\na END. "
    let more := LineEvent.prompt (Text.ofString "...   ")
    FillsLines t ∧ (l.run ((Text.lines t).map .line ++ [])).events =
      [.prompt (Text.ofString "> "), more, more, more,
        .history (Text.ofString "BEGIN a := (4  + 1); b := a * a END."),
        .evaluated (Text.ofString "BEGIN a := (4\n\n+ 1); b := a *\na END."),
        .out (Text.ofString "a = 5, b = 25\n"), .prompt (Text.ofString "> "),
        .out (Text.ofString "\n")] := by
  intro l t more
  have hfills : FillsLines t := ⟨by decide +kernel, by decide +kernel⟩
  have hparse : (l.session.engine.parse t).toOption.map Program.layout =
      some "BEGIN\n  a := 4 + 1;\n  b := a * a\nEND.\n" := by decide +kernel
  obtain ⟨p, hp, _⟩ := Program.exists_of_layout hparse
  refine ⟨hfills, ?_⟩
  rw [(run_program_lines (l := l) rfl hp hfills []).2]
  decide +kernel

end LineLoop
end BlockCalc
