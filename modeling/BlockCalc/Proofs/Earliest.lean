import BlockCalc.Proofs.Completion
import BlockCalc.Proofs.Order

/-!
# BlockCalc.Proofs.Earliest

A text that is not accepted is given up at the earliest token that makes it so. What stands before
that token begins some accepted text, and what it makes with the token begins none: at no depth if
the token was not expected, at no such depth if it nests too deep. Every kind of token that the
error asks for could have stood there instead.

The accepted texts are told by their lexemes, since the tokens that complete a prefix are written
anew.
-/

namespace BlockCalc

open Grammar

/-- The lexemes `ls` are those of a source that is accepted with depth `d`. -/
def Accepted {α : Type} (parse : Nat → Text → Except Rejection α) (d : Nat) (ls : List Lexeme) :
    Prop :=
  ∃ (src : List UInt8) (a : α), parse d (Text.ofBytes src) = .ok a ∧
    lexemes (Scan.ofText (Text.ofBytes src)).tokens = ls

/-- The kind of the token that comes next, or of the end. -/
def nextKind : List Lexeme → TokenKind
  | [] => .eof
  | l :: _ => l.kind

/-- The text with the tokens `s` is given up, by the error, at the earliest token that rules it
out. -/
def Earliest {α : Type} (parse : Nat → Text → Except Rejection α) (d : Nat) (s : Scan) :
    Rejection → Prop
  | .lex e => s.stop = .fault e ∧ ∃ more, Accepted parse d (lexemes s.tokens ++ more)
  | .parse e => ∃ us rest, s.tokens = us ++ rest ∧ e.IsAt s.stop rest ∧
      (∃ more, Accepted parse d (lexemes us ++ more)) ∧
      match e.fault with
      | .expected kinds =>
        (∀ d' more, nextKind more = e.foundKind → ¬ Accepted parse d' (lexemes us ++ more)) ∧
        ∀ κ ∈ kinds, ∃ more, nextKind more = κ ∧
          ∃ least, ∀ d' ≥ least, Accepted parse d' (lexemes us ++ more)
      | .tooDeep limit => limit = d ∧ ∃ t after, rest = t :: after ∧
        (∀ more, ¬ Accepted parse d (lexemes us ++ t.lexeme :: more)) ∧
        ∃ d' > d, ∃ more, Accepted parse d' (lexemes us ++ t.lexeme :: more)

/-! ## What the two parsers have in common -/

/-- The parser accepts the language `L`, with as much room as `room` says for a depth, gives up
after a viable part, and goes in step on texts that are alike. -/
structure Parses {α : Type} (parse : Nat → Text → Except Rejection α) (L : Language)
    (room : Nat → Nat) : Prop where
  le_room : ∀ d, d ≤ room d
  room_mono : ∀ {d d'}, d ≤ d' → room d ≤ room d'
  relabel : ∀ {ts us n}, L ts n → lexemes us = lexemes ts → L us n
  ok_iff : ∀ {d t}, (∃ a, parse d t = .ok a) ↔ ∃ ts, Tokenized t ts ∧ ∃ n ≤ room d, L ts n
  precise : ∀ {d t e}, parse d t = .error e →
    Reader.LeftAt ⟨(Scan.ofText t).stop, d⟩ L (room d) (Scan.ofText t).tokens e
  lockstep : ∀ {d d' t e after ts n}, parse d t = .error e → L ts n → n ≤ room d' → d ≤ d' →
    Reader.Alike after (Scan.ofText t).tokens ts →
    (after = none → ∃ q, (Scan.ofText t).stop = .eof q) →
    Reader.Excused ⟨(Scan.ofText t).stop, d⟩ d' after e

theorem exists_ok_iff {α : Type} {phrase : α → Phrase} {x : Except Rejection α} {t : Text}
    {room : Nat}
    (h : ∀ a, x = .ok a ↔ ∃ ts, Tokenized t ts ∧ ∃ n ≤ room, Derives (phrase a) ts n) :
    (∃ a, x = .ok a) ↔ ∃ ts, Tokenized t ts ∧ ∃ n ≤ room, Language.of phrase ts n := by
  constructor
  · rintro ⟨a, ha⟩
    obtain ⟨ts, hts, n, hn, hd⟩ := (h a).1 ha
    exact ⟨ts, hts, n, hn, a, hd⟩
  · rintro ⟨ts, hts, n, hn, a, hd⟩
    exact ⟨a, (h a).2 ⟨ts, hts, n, hn, hd⟩⟩

theorem Program.parses : Parses Program.parse (.of .program) (fun d => d - 1 + 1) where
  le_room d := by omega
  room_mono h := by omega
  relabel h hus := by
    obtain ⟨p, hd⟩ := h
    obtain ⟨p', _, hd'⟩ := hd.relabel _ hus
    exact ⟨p', hd'⟩
  ok_iff := exists_ok_iff fun _ => Program.parse_eq_ok_iff
  precise h := Reader.program_precise h
  lockstep := by
    intro d d' t e after ts n h hts hn hd halike hend
    obtain ⟨p, hp⟩ := hts
    have hok : Reader.program ⟨.eof .start, d'⟩ ts = .ok p :=
      (Reader.program_iff rfl).2 ⟨n, hn, hp⟩
    exact Reader.program_lockstep halike hend hd h hok

theorem Expr.parses : Parses Expr.parse (.of .expression) id where
  le_room d := Nat.le_refl d
  room_mono h := h
  relabel h hus := by
    obtain ⟨x, hd⟩ := h
    obtain ⟨x', _, hd'⟩ := hd.relabel _ hus
    exact ⟨x', hd'⟩
  ok_iff := exists_ok_iff fun _ => Expr.parse_eq_ok_iff
  precise h := Reader.loneExpression_precise h
  lockstep := by
    intro d d' t e after ts n h hts hn hd halike hend
    obtain ⟨x, hx⟩ := hts
    have hok : Reader.loneExpression ⟨.eof .start, d'⟩ ts = .ok x :=
      (Reader.loneExpression_iff rfl).2 ⟨n, hn, hx⟩
    exact Reader.loneExpression_lockstep halike hend hd h hok

/-! ## Errors in their places -/

theorem ParseError.IsAt.foundKind {e : ParseError} {stop : Stop} {ts : List Token}
    (h : e.IsAt stop ts) : e.foundKind = nextKind (lexemes ts) := by
  cases ts <;> rw [ParseError.foundKind, h.2] <;> rfl

theorem ParseError.IsAt.pos {e : ParseError} {r : Reader} {ts : List Token}
    (h : e.IsAt r.stop ts) : e.pos = r.here ts := by
  cases ts with
  | nil => rw [Reader.here, h.1]; rfl
  | cons t ts => exact h.1

theorem Reader.here_mem_of_suffix {r : Reader} {rest ts : List Token} (h : rest <:+ ts) :
    r.here rest ∈ ts.map (·.pos) ++ [r.stop.pos] := by
  match rest with
  | [] => exact List.mem_append_right _ (List.mem_singleton.2 rfl)
  | t :: rest =>
    exact List.mem_append_left _ (List.mem_map.2 ⟨t, h.subset (List.mem_cons_self ..), rfl⟩)

/-- No two tokens of a text share a place, so an error is about one of them. -/
theorem Scan.pos_ne_here {t : Text} {us after rest : List Token} {u : Token} {d : Nat}
    (htokens : (Scan.ofText t).tokens = us ++ u :: after) (hrest : rest <:+ after) :
    u.pos ≠ Reader.here ⟨(Scan.ofText t).stop, d⟩ rest := by
  have hplaces := Scan.ascending_ofText t
  rw [Scan.places, htokens, List.map_append, List.append_assoc] at hplaces
  have hafter := (List.pairwise_append.1 hplaces).2.1
  exact (List.rel_of_pairwise_cons hafter (Reader.here_mem_of_suffix hrest)).ne

namespace Parses

variable {α : Type} {parse : Nat → Text → Except Rejection α} {L : Language} {room : Nat → Nat}

theorem accepted_iff (h : Parses parse L room) {d : Nat} {ls : List Lexeme} :
    Accepted parse d ls ↔ (∀ l ∈ ls, l.Proper) ∧ ∃ n ≤ room d, L (nowhere ls) n := by
  constructor
  · rintro ⟨src, a, ha, rfl⟩
    obtain ⟨ts, ⟨q, hq⟩, n, hn, hts⟩ := h.ok_iff.1 ⟨a, ha⟩
    refine ⟨Cursor.proper_scan _, n, hn, h.relabel hts ?_⟩
    rw [lexemes_nowhere, hq]
  · rintro ⟨hls, n, hn, hL⟩
    obtain ⟨bs, hbs⟩ := exists_spells hls
    obtain ⟨ts, hts, hlexemes⟩ := spells_iff.1 hbs
    obtain ⟨a, ha⟩ := h.ok_iff.2 ⟨ts, hts, n, hn, h.relabel hL (by rw [lexemes_nowhere, hlexemes])⟩
    obtain ⟨q, hq⟩ := hts
    exact ⟨bs, a, ha, by rw [hq, hlexemes]⟩

/-- Viable tokens that can be written begin an accepted text. -/
theorem accepted_of_viable (h : Parses parse L room) {us : List Token} {n : Nat}
    (hus : ∀ l ∈ lexemes us, l.Proper) (hviable : Viable L n us) :
    ∃ more, ∀ d, n ≤ room d → Accepted parse d (lexemes us ++ more) := by
  obtain ⟨more, m, hmore, hm, hL⟩ := hviable
  refine ⟨lexemes more, fun d hd => h.accepted_iff.2 ⟨?_, m, Nat.le_trans hm hd, ?_⟩⟩
  · intro l hl
    exact (List.mem_append.1 hl).elim (hus l) (hmore.proper l)
  · exact h.relabel hL (by rw [lexemes_nowhere, lexemes_append])

theorem accepted_of_viable_snoc (h : Parses parse L room) {us : List Token} {t : Token} {n : Nat}
    (hus : ∀ l ∈ lexemes us, l.Proper) (ht : t.lexeme.Proper) (hviable : Viable L n (us ++ [t])) :
    ∃ more, ∀ d ≥ n, Accepted parse d (lexemes us ++ t.lexeme :: more) := by
  have hproper : ∀ l ∈ lexemes (us ++ [t]), l.Proper := by
    intro l hl
    rw [lexemes_append] at hl
    exact (List.mem_append.1 hl).elim (hus l) fun hl => List.mem_singleton.1 hl ▸ ht
  obtain ⟨more, hmore⟩ := h.accepted_of_viable hproper hviable
  exact ⟨more, fun d hd => by simpa using hmore d (Nat.le_trans hd (h.le_room d))⟩

/-- A text that is like an accepted one, up to where it is left, is left for want of room. -/
theorem tooDeep_of_alike (h : Parses parse L room) {d d' n : Nat} {t : Text} {e : ParseError}
    {after : Option (List Token)} {ts : List Token} (hparse : parse d t = .error (.parse e))
    (hts : L ts n) (hn : n ≤ room d') (halike : Reader.Alike after (Scan.ofText t).tokens ts)
    (hend : after = none → ∃ q, (Scan.ofText t).stop = .eof q)
    (hplace : ∀ {us}, Reader.Beyond after us →
      e.pos ≠ Reader.here ⟨(Scan.ofText t).stop, d⟩ us) :
    d < d' ∧ e.fault = .tooDeep d := by
  -- the accepted one is accepted with both depths at hand, too
  have hroom := Nat.le_trans hn (h.room_mono (Nat.le_max_right d d'))
  rcases h.lockstep hparse hts hroom (Nat.le_max_left d d') halike hend with
    ⟨hlt, u, hu⟩ | ⟨us, hus, hconcerns⟩
  · cases hu
    exact ⟨by simp only at hlt; omega, rfl⟩
  · exact absurd hconcerns.isAt.pos (hplace hus)

/-- No text that goes on with a token of the same kind is accepted, except for more room. -/
theorem ruled_out (h : Parses parse L room) {d d' : Nat} {t : Text} {e : ParseError}
    {us rest : List Token} {more : List Lexeme} (hparse : parse d t = .error (.parse e))
    (htokens : (Scan.ofText t).tokens = us ++ rest) (hat : e.IsAt (Scan.ofText t).stop rest)
    (hmore : Accepted parse d' (lexemes us ++ more))
    (hkind : nextKind more = nextKind (lexemes rest)) : d < d' ∧ e.fault = .tooDeep d := by
  obtain ⟨_, n, hn, hL⟩ := h.accepted_iff.1 hmore
  have hts : L (us ++ nowhere more) n := h.relabel hL (by simp [lexemes_nowhere])
  match rest, more with
  | [], [] =>
    have halike : Reader.Alike none (us ++ []) (us ++ nowhere []) := Reader.Alike.ended.append us
    rw [← htokens] at halike
    refine h.tooDeep_of_alike hparse hts hn halike (fun _ => ⟨_, hat.1⟩) ?_
    rintro vs ⟨ws, hws, _⟩
    cases hws
  | u :: after, l :: more =>
    have hk : u.lexeme.kind = (⟨l, .nowhere⟩ : Token).lexeme.kind := hkind.symm
    have halike : Reader.Alike (some after) (us ++ u :: after) (us ++ nowhere (l :: more)) :=
      (Reader.Alike.step hk .parted).append us
    rw [← htokens] at halike
    refine h.tooDeep_of_alike hparse hts hn halike nofun ?_
    rintro vs ⟨ws, hws, hvs⟩
    cases hws
    rw [hat.1]
    exact Scan.pos_ne_here htokens hvs
  | [], l :: more => cases l <;> cases hkind
  | ⟨l, p⟩ :: after, [] => cases l <;> cases hkind

/-- What an error asks for makes an accepted text. -/
theorem accepted_of_follows (h : Parses parse L room) {us : List Token} {κ : TokenKind}
    (hus : ∀ l ∈ lexemes us, l.Proper) (hκ : CanFollow L us κ ∨ κ = .eof ∧ ∃ n, L us n) :
    ∃ more, nextKind more = κ ∧
      ∃ least, ∀ d ≥ least, Accepted parse d (lexemes us ++ more) := by
  rcases hκ with ⟨l, p, n, rfl, hl, hviable⟩ | ⟨rfl, n, hL⟩
  · obtain ⟨more, hmore⟩ := h.accepted_of_viable_snoc hus (completing_proper hl) hviable
    exact ⟨l :: more, rfl, n, hmore⟩
  · refine ⟨[], rfl, n, fun d hd => ?_⟩
    rw [List.append_nil]
    exact h.accepted_iff.2 ⟨hus, n, Nat.le_trans hd (h.le_room d), h.relabel hL (lexemes_nowhere _)⟩

theorem earliest (h : Parses parse L room) {d : Nat} {t : Text} {e : Rejection}
    (hparse : parse d t = .error e) : Earliest parse d (Scan.ofText t) e := by
  obtain ⟨us, rest, htokens, hviable, he⟩ := h.precise hparse
  have hproper : ∀ l ∈ lexemes (us ++ rest), l.Proper :=
    htokens ▸ Cursor.proper_scan (Cursor.ofText t)
  have hus : ∀ l ∈ lexemes us, l.Proper := fun l hl =>
    hproper l (by rw [lexemes_append]; exact List.mem_append_left _ hl)
  obtain ⟨more, hmore⟩ := h.accepted_of_viable hus hviable
  have hbegins : ∃ more, Accepted parse d (lexemes us ++ more) := ⟨more, hmore d (Nat.le_refl _)⟩
  rcases he with ⟨kinds, he, hkinds⟩ | ⟨u, after, rfl, he, n, hu⟩
  · cases e with
    | lex e =>
      obtain ⟨rfl, hstop⟩ := Reader.unexpected_lex he
      exact ⟨hstop, by rwa [htokens, List.append_nil]⟩
    | parse e =>
      obtain ⟨hat, hfault⟩ := Reader.unexpected_parse he
      refine ⟨us, rest, htokens, hat, hbegins, ?_⟩
      rw [hfault]
      refine ⟨fun d' more hkind hacc => ?_, fun κ hκ => h.accepted_of_follows hus (hkinds κ hκ)⟩
      have hdeep := (h.ruled_out hparse htokens hat hacc (hkind.trans hat.foundKind)).2
      rw [hfault] at hdeep
      cases hdeep
  · cases he
    refine ⟨us, u :: after, htokens, ⟨rfl, rfl⟩, hbegins, rfl, u, after, rfl, ?_, ?_⟩
    · intro more hacc
      exact Nat.lt_irrefl d (h.ruled_out hparse htokens ⟨rfl, rfl⟩ hacc rfl).1
    · obtain ⟨more, hmore⟩ := h.accepted_of_viable_snoc hus (hproper u.lexeme (by simp)) hu
      exact ⟨max n (d + 1), Nat.le_max_right _ _, more, hmore _ (Nat.le_max_left _ _)⟩

end Parses

/-- An engine that does not accept a text, as a program or as an expression, gives it up at the
earliest token that rules it out. -/
theorem Engine.parse_error_earliest (e : Engine) (src : List UInt8) :
    (∀ r, e.parse (Text.ofBytes src) = .error r →
      Earliest Program.parse e.maxDepth (Scan.ofText (Text.ofBytes src)) r) ∧
    (∀ r, e.parseExpression (Text.ofBytes src) = .error r →
      Earliest Expr.parse e.maxDepth (Scan.ofText (Text.ofBytes src)) r) := by
  constructor
  · intro r h
    exact Program.parses.earliest h
  · intro r h
    exact Expr.parses.earliest h

/-- A group that is not closed, and a sign that is one too many. -/
theorem Engine.parse_error_earliest_group_sign :
    (∃ r, r = .parse ⟨⟨1, 15⟩, some .endWord, .expected [.rparen]⟩ ∧
      (⟨2, .truncate⟩ : Engine).parse (Text.ofBytes "BEGIN x := (1 END.".toUTF8.toList) = .error r ∧
      Earliest Program.parse 2
        (Scan.ofText (Text.ofBytes "BEGIN x := (1 END.".toUTF8.toList)) r) ∧
    (∃ r, r = .parse ⟨⟨1, 4⟩, some .plus, .tooDeep 1⟩ ∧
      (⟨1, .floor⟩ : Engine).parseExpression (Text.ofBytes "1--+1".toUTF8.toList) = .error r ∧
      Earliest Expr.parse 1 (Scan.ofText (Text.ofBytes "1--+1".toUTF8.toList)) r) := by
  have hgroup := eq_error_of_rejection? (x := (⟨2, .truncate⟩ : Engine).parse
    (Text.ofBytes "BEGIN x := (1 END.".toUTF8.toList))
    (r := .parse ⟨⟨1, 15⟩, some .endWord, .expected [.rparen]⟩) (by decide +kernel)
  have hsign := eq_error_of_rejection? (x := (⟨1, .floor⟩ : Engine).parseExpression
    (Text.ofBytes "1--+1".toUTF8.toList))
    (r := .parse ⟨⟨1, 4⟩, some .plus, .tooDeep 1⟩) (by decide +kernel)
  exact ⟨⟨_, rfl, hgroup, (Engine.parse_error_earliest _ _).1 _ hgroup⟩,
    ⟨_, rfl, hsign, (Engine.parse_error_earliest _ _).2 _ hsign⟩⟩

end BlockCalc
