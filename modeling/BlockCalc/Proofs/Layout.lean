import BlockCalc.Tree.Layout
import BlockCalc.Proofs.Acceptance
import BlockCalc.Proofs.Canonical
import BlockCalc.Proofs.Scanning

/-!
# BlockCalc.Proofs.Layout

Canonical source spells the canonical lexemes of a program, so it is read as the same program up
to places, and its canonical source is itself.
-/

namespace BlockCalc

open Grammar

/-! ## Trees that can be written -/

/-- Numbers are not negative, and names are names. -/
def Expr.WellFormed : Expr → Prop
  | .int v _ => 0 ≤ v.toInt
  | .var x _ => IsName x
  | .unary _ e _ => e.WellFormed
  | .binary _ l r _ => l.WellFormed ∧ r.WellFormed

mutual

def Stmt.WellFormed : Stmt → Prop
  | .block _ b => b.WellFormed
  | .assign x _ e _ => IsName x ∧ e.WellFormed
  | .empty _ => True

def Stmts.WellFormed : Stmts → Prop
  | .one s => s.WellFormed
  | .cons s b => s.WellFormed ∧ b.WellFormed

end

namespace Grammar

def Phrase.WellFormed : Phrase → Prop
  | .factor e => e.WellFormed
  | .chain _ e => e.WellFormed
  | .tail _ l e => l.WellFormed → e.WellFormed
  | .statement s _ => s.WellFormed
  | .statements b _ => b.WellFormed
  | .compound _ b => b.WellFormed
  | .program p => p.body.WellFormed

theorem Phrase.wellFormed_operand {k : Level} {e : Expr} :
    (k.operand e).WellFormed ↔ e.WellFormed := by
  cases k <;> rfl

theorem toInt_nonneg_of_proper {digits : String} {v : Int64}
    (h : (Lexeme.integer digits v).Proper) : 0 ≤ v.toInt := by
  obtain ⟨_, hlt, rfl⟩ := h
  rw [Int64.toInt_ofNat_of_lt hlt]
  exact Int.natCast_nonneg _

/-- What proper lexemes derive can be written. -/
theorem Derives.wellFormed {x : Phrase} {ts : List Token} {n : Nat} (h : Derives x ts n) :
    (∀ l ∈ lexemes ts, l.Proper) → x.WellFormed := by
  induction h with
  | @integer digits v p =>
    intro hts
    exact toInt_nonneg_of_proper (hts (.integer digits v) (by simp))
  | @name x p => intro hts; exact hts (.ident x) (by simp)
  | group _ ih => intro hts; exact ih fun l hl => hts l (by simp [hl])
  | sign _ ih => intro hts; exact ih fun l hl => hts l (by simp [hl])
  | chain _ _ ihl ih =>
    intro hts
    exact ih (fun l hl => hts l (by simp [hl]))
      (Phrase.wellFormed_operand.1 (ihl fun l hl => hts l (by simp [hl])))
  | done => intro _ hl; exact hl
  | more _ _ _ ihr ih =>
    intro hts hl
    have hr := Phrase.wellFormed_operand.1 (ihr fun l hl => hts l (by simp [hl]))
    exact ih (fun l hl => hts l (by simp [hl])) ⟨hl, hr⟩
  | empty => intro _; trivial
  | @assign x e ts n p q next _ ih =>
    intro hts
    exact ⟨hts (.ident x) (by simp), ih fun l hl => hts l (by simp [hl])⟩
  | block _ ih => exact ih
  | one _ ih => exact ih
  | cons _ _ ihs ih =>
    intro hts
    exact ⟨ihs fun l hl => hts l (by simp [hl]), ih fun l hl => hts l (by simp [hl])⟩
  | compound _ ih => intro hts; exact ih fun l hl => hts l (by simp [hl])
  | program _ ih => intro hts; exact ih fun l hl => hts l (by simp [hl])

end Grammar

/-! ## Numbers -/

theorem isNumeral_repr (n : Nat) : IsNumeral (Text.ofString n.repr) := by
  rw [Nat.repr_eq_ofList_toDigits]
  refine ⟨by simp [Text.ofString, Nat.toDigits_ne_nil], fun g hg => ?_⟩
  simp only [Text.ofString, String.toList_ofList, List.mem_map] at hg
  obtain ⟨c, hc, rfl⟩ := hg
  have hdigit := Nat.isDigit_of_mem_toDigits (by decide) (by decide) hc
  simp only [Glyph.isAsciiDigit, Bool.and_eq_true, decide_eq_true_eq]
  exact Char.isDigit_iff_toNat.1 hdigit

theorem decimal_repr (n : Nat) : decimal (Text.ofString n.repr) = n := by
  rw [decimal_ofString, Nat.repr_eq_ofList_toDigits, String.toList_ofList,
    Nat.ofDigitChars_toDigits (by decide) (by decide)]

theorem numeral_proper {v : Int64} (h : 0 ≤ v.toInt) : (Lexeme.integer (numeral v) v).Proper := by
  obtain ⟨n, hn⟩ := Int.eq_ofNat_of_zero_le h
  have hnum : numeral v = n.repr := by rw [numeral, hn]; rfl
  have hlt : n < 0x8000000000000000 := by
    have := v.toInt_lt
    omega
  simp only [Lexeme.Proper, hnum, decimal_repr]
  refine ⟨isNumeral_repr n, hlt, ?_⟩
  rw [← Int64.toInt_inj, hn, Int64.toInt_ofNat_of_lt hlt]

/-! ## Expressions -/

/-- An expression as it is written where it stands in a slot. -/
def Expr.text (e : Expr) (slot : Slot) : String :=
  match e with
  | .binary op _ _ _ =>
    if slot.admits op then e.toTree.formula else Tree.parenthesise e.toTree.formula
  | _ => e.toTree.formula

theorem Expr.formula_unary (s : Sign) (e : Expr) (p : Position) :
    (Expr.unary s e p).toTree.formula = s.lexeme.literal ++ e.text .factor ∨
    (Expr.unary s e p).toTree.formula = s.lexeme.literal ++ " " ++ e.text .factor := by
  cases e <;> cases s <;>
    simp [toTree, Tree.formula, text, Slot.admits, Sign.kind, Sign.lexeme, TokenKind.symbol,
      Lexeme.literal]

theorem Expr.formula_binary (op : BinaryOp) (l r : Expr) (p : Position) :
    (Expr.binary op l r p).toTree.formula =
      l.text (.chain op.level) ++ " " ++ op.lexeme.literal ++ " " ++ r.text op.level.slot := by
  have hsym : op.kind.symbol = op.lexeme.literal := by cases op <;> rfl
  rw [toTree, Tree.formula.eq_def]
  simp only [hsym]
  congr 1
  · congr 3
    cases l with
    | binary child a b q => cases op <;> cases child <;> rfl
    | _ => rfl
  · cases r with
    | binary child a b q => cases op <;> cases child <;> rfl
    | _ => rfl

theorem blanks_space : Blanks (Text.ofString " ") := by unfold Blanks; decide

theorem stopsAt_space (t : Text) : Text.StopsAt Glyph.isWordPart (Text.ofString " " ++ t) := by
  intro g hg; cases hg; decide

/-- A sign or a parenthesis takes nothing in, so anything may follow it. -/
theorem Spells.symbol {l : Lexeme} {t : Text} {ls : List Lexeme} (hl : l.Proper)
    (hgoes : l.goesOn = fun _ => false) (h : Spells t ls) : Spells (l.glyphs ++ t) (l :: ls) :=
  .lexeme hl (fun g _ => by rw [hgoes]) h

theorem Expr.spells (e : Expr) (he : e.WellFormed) : ∀ (slot : Slot) {rest : Text}
    {ls : List Lexeme}, Text.StopsAt Glyph.isWordPart rest → Spells rest ls →
      Spells (Text.ofString (e.text slot) ++ rest) (e.spelling slot ++ ls) := by
  induction e with
  | int v p =>
    intro slot rest ls hrest h
    have htext : (Expr.int v p).text slot = (Lexeme.integer (numeral v) v).literal := rfl
    rw [htext]
    exact .lexeme (numeral_proper he) (Lexeme.breaks_of_stopsAt _ hrest) h
  | var x p =>
    intro slot rest ls hrest h
    exact .lexeme (l := .ident x) he (Lexeme.breaks_of_stopsAt _ hrest) h
  | unary s e p ih =>
    intro slot rest ls hrest h
    have hsign : ∀ {t ms}, Spells t ms → Spells (s.lexeme.glyphs ++ t) (s.lexeme :: ms) := by
      cases s <;> exact Spells.symbol trivial rfl
    have hoperand := ih he .factor hrest h
    have htext : (Expr.unary s e p).text slot = (Expr.unary s e p).toTree.formula := rfl
    rcases formula_unary s e p with hf | hf
    · simpa [htext, hf, spelling, Lexeme.glyphs] using hsign hoperand
    · simpa [htext, hf, spelling, Lexeme.glyphs] using hsign (hoperand.blanks blanks_space)
  | binary op l r p ihl ihr =>
    intro slot rest ls hrest h
    have hop : ∀ {t ms}, Spells t ms → Spells (op.lexeme.glyphs ++ t) (op.lexeme :: ms) := by
      cases op <;> exact Spells.symbol trivial rfl
    have hchain : ∀ {rest : Text} {ls : List Lexeme}, Text.StopsAt Glyph.isWordPart rest →
        Spells rest ls → Spells (Text.ofString (Expr.binary op l r p).toTree.formula ++ rest)
          (l.spelling (.chain op.level) ++ op.lexeme :: r.spelling op.level.slot ++ ls) := by
      intro rest ls hrest h
      have hright := hop ((ihr he.2 op.level.slot hrest h).blanks blanks_space)
      have := ihl he.1 (.chain op.level) (stopsAt_space _) (hright.blanks blanks_space)
      simpa [formula_binary, Lexeme.glyphs] using this
    cases hslot : slot.admits op with
    | true => simpa [text, spelling, hslot] using hchain hrest h
    | false =>
      have hclose := Spells.symbol (l := .rparen) trivial rfl h
      have hstop : Text.StopsAt Glyph.isWordPart (Lexeme.rparen.glyphs ++ rest) := by
        intro g hg; cases hg; decide
      have := Spells.symbol (l := .lparen) trivial rfl (hchain hstop hclose)
      simpa [text, spelling, hslot, Tree.parenthesise, Lexeme.glyphs, Lexeme.literal] using this

theorem Expr.text_expression (e : Expr) : e.text (.chain .sum) = e.toTree.formula := by
  cases e <;> rfl

/-! ## Statements -/

theorem blanks_newline : Blanks (Text.ofString "\n") := by unfold Blanks; decide

theorem stopsAt_newline (t : Text) : Text.StopsAt Glyph.isWordPart (Text.ofString "\n" ++ t) := by
  intro g hg; cases hg; decide

theorem blanks_indent (depth : Nat) : Blanks (Text.ofString (Tree.indent depth)) := by
  intro g hg
  simp only [Text.ofString, Tree.indent, String.toList_ofList, List.map_replicate] at hg
  rw [List.eq_of_mem_replicate hg]
  decide

/-- A block is its keywords around the lines of its statements. -/
theorem Spells.block {b : Text} {bs : List Lexeme} {rest : Text} {ls : List Lexeme} (depth : Nat)
    (hb : ∀ {rest : Text} {ls : List Lexeme}, Spells rest ls → Spells (b ++ rest) (bs ++ ls))
    (hrest : Text.StopsAt Glyph.isWordPart rest) (h : Spells rest ls) :
    Spells (Text.ofString "BEGIN\n" ++ b ++ Text.ofString (Tree.indent depth ++ "END") ++ rest)
      (.beginWord :: (bs ++ .endWord :: ls)) := by
  have hend := Spells.lexeme (l := .endWord) trivial (Lexeme.breaks_of_stopsAt _ hrest) h
  have hlines := hb (hend.blanks (blanks_indent depth))
  have hbegin := Spells.lexeme (l := .beginWord) trivial
    (Lexeme.breaks_of_stopsAt _ (stopsAt_newline _)) (hlines.blanks blanks_newline)
  have hsplit : Text.ofString "BEGIN\n" = Text.ofString "BEGIN" ++ Text.ofString "\n" := by decide
  simpa [hsplit, Lexeme.glyphs, Lexeme.literal] using hbegin

theorem Tree.isNoop_toTree {s : Stmt} (h : s.toTree.isNoop = true) : ∃ p, s = .empty p := by
  cases s with
  | empty p => exact ⟨p, rfl⟩
  | block p b => cases h
  | assign x p e q => cases h

theorem Stmts.toTrees_ne_nil (b : Stmts) : b.toTrees.isEmpty = false := by
  cases b <;> rfl

mutual

theorem Stmt.spells : ∀ (s : Stmt), s.WellFormed → ∀ (depth : Nat) {rest : Text}
    {ls : List Lexeme}, Text.StopsAt Glyph.isWordPart rest → Spells rest ls →
      Spells (Text.ofString (s.toTree.layoutStatement depth) ++ rest) (s.spelling ++ ls)
  | .block p b, hb, depth, rest, ls, hrest, h => by
    have := Spells.block depth (b.spells hb depth) hrest h
    simpa [Stmt.toTree, Tree.layoutStatement, Tree.blockText, Stmt.spelling] using this
  | .assign x p e q, ⟨hx, he⟩, depth, rest, ls, hrest, h => by
    have hvalue := (e.spells he (.chain .sum) hrest h).blanks blanks_space
    have hassign := (Spells.symbol (l := .assign) trivial rfl hvalue).blanks blanks_space
    have := Spells.lexeme (l := .ident x) hx
      (Lexeme.breaks_of_stopsAt _ (stopsAt_space _)) hassign
    have hsplit : Text.ofString " := " =
        Text.ofString " " ++ (Text.ofString ":=" ++ Text.ofString " ") := by decide
    simpa [Stmt.toTree, Tree.layoutStatement, Stmt.spelling, Lexeme.glyphs, Lexeme.literal,
      e.text_expression, hsplit] using this
  | .empty p, _, depth, rest, ls, _, h => by
    simpa [Stmt.toTree, Tree.layoutStatement, Stmt.spelling, Text.ofString] using h

theorem Stmts.spells : ∀ (b : Stmts), b.WellFormed → ∀ (depth : Nat) {rest : Text}
    {ls : List Lexeme}, Spells rest ls →
      Spells (Text.ofString (Tree.layoutLines b.toTrees depth) ++ rest) (b.spelling ++ ls)
  | .one s, hs, depth, rest, ls, h => by
    cases hnoop : s.toTree.isNoop with
    | true =>
      obtain ⟨p, rfl⟩ := Tree.isNoop_toTree hnoop
      simpa [Stmts.toTrees, Tree.layoutLines, hnoop, Stmts.spelling, Stmt.spelling,
        Text.ofString] using h
    | false =>
      have hline := s.spells hs (depth + 1) (stopsAt_newline rest) (h.blanks blanks_newline)
      have := hline.blanks (blanks_indent (depth + 1))
      simpa [Stmts.toTrees, Tree.layoutLines, hnoop, Stmts.spelling] using this
  | .cons s b, ⟨hs, hb⟩, depth, rest, ls, h => by
    have hlines := (b.spells hb depth h).blanks blanks_newline
    have hsemi := Spells.symbol (l := .semi) trivial rfl hlines
    have hline := s.spells hs (depth + 1) (by intro g hg; cases hg; decide) hsemi
    have := hline.blanks (blanks_indent (depth + 1))
    have hsplit : Text.ofString ";\n" = Text.ofString ";" ++ Text.ofString "\n" := by decide
    simpa [Stmts.toTrees, Tree.layoutLines, b.toTrees_ne_nil, Stmts.spelling, Lexeme.glyphs,
      Lexeme.literal, hsplit] using this

end

theorem Program.spells_layout (p : Program) (hp : p.body.WellFormed) :
    Spells (Text.ofString p.layout) p.spelling := by
  have hdot := Spells.symbol (l := .dot) trivial rfl (Spells.nil blanks_newline)
  have := Spells.block 0 (p.body.spells hp 0) (by intro g hg; cases hg; decide) hdot
  have hsplit : Text.ofString ".\n" = Text.ofString "." ++ Text.ofString "\n" := by decide
  simpa [Program.layout, Tree.layoutProgram, Tree.blockText, Program.spelling, Lexeme.glyphs,
    Lexeme.literal, hsplit] using this

/-! ## Layout does not depend on places -/

theorem Expr.text_bare {e : Expr} (he : e.bare.toTree.formula = e.toTree.formula) (slot : Slot) :
    e.bare.text slot = e.text slot := by
  cases e with
  | binary op l r p =>
    rw [bare] at he
    simp only [bare, text, he]
  | _ => exact he

theorem Expr.formula_bare (e : Expr) : e.bare.toTree.formula = e.toTree.formula := by
  induction e with
  | int v p => rfl
  | var x p => rfl
  | unary s e p ih =>
    cases e <;> simp only [bare, toTree, Tree.formula] at ih ⊢ <;> rw [ih]
  | binary op l r p ihl ihr =>
    rw [bare, formula_binary, formula_binary, text_bare ihl, text_bare ihr]

theorem Stmt.isNoop_bare (s : Stmt) : s.bare.toTree.isNoop = s.toTree.isNoop := by
  cases s <;> rfl

mutual

theorem Stmt.layout_bare : ∀ (s : Stmt) (depth : Nat),
    s.bare.toTree.layoutStatement depth = s.toTree.layoutStatement depth
  | .block p b, depth => by
    simp only [Stmt.bare, Stmt.toTree, Tree.layoutStatement, b.layout_bare depth]
  | .assign x p e q, depth => by
    simp only [Stmt.bare, Stmt.toTree, Tree.layoutStatement, e.formula_bare]
  | .empty p, depth => rfl

theorem Stmts.layout_bare : ∀ (b : Stmts) (depth : Nat),
    Tree.layoutLines b.bare.toTrees depth = Tree.layoutLines b.toTrees depth
  | .one s, depth => by
    simp only [Stmts.bare, Stmts.toTrees, Tree.layoutLines, s.layout_bare (depth + 1),
      s.isNoop_bare]
  | .cons s b, depth => by
    simp only [Stmts.bare, Stmts.toTrees, Tree.layoutLines, s.layout_bare (depth + 1),
      b.layout_bare depth, b.toTrees_ne_nil, b.bare.toTrees_ne_nil, s.isNoop_bare]

end

theorem Program.layout_bare (p : Program) : p.bare.layout = p.layout := by
  simp only [Program.layout, Program.bare, Tree.layoutProgram, p.body.layout_bare 0]

/-! ## Reading canonical source -/

/-- Canonical source is read as the program it was made from, in any depth that its canonical
lexemes nest in. -/
theorem Program.parse_layout {p : Program} {limit : Nat} (hp : p.body.WellFormed)
    (hn : p.nesting ≤ limit - 1 + 1) :
    ∃ p', Program.parse limit (Text.ofString p.layout) = .ok p' ∧ p'.bare = p.bare := by
  obtain ⟨ts, htokens, hts⟩ := spells_iff.1 (p.spells_layout hp)
  have hderives := p.derives_spelling.relabel
  rw [lexemes_nowhere] at hderives
  obtain ⟨p', hp', hd⟩ := hderives ts hts
  refine ⟨p', Program.parse_eq_ok_iff.2 ⟨ts, htokens, _, hn, hd⟩, ?_⟩
  rw [hp', p.bare_bare]

/-- Whatever is accepted can be written, and nests as deep as its canonical lexemes at least. -/
theorem Program.wellFormed_of_parse {t : Text} {limit : Nat} {p : Program}
    (h : Program.parse limit t = .ok p) : p.body.WellFormed ∧ p.nesting ≤ limit - 1 + 1 := by
  obtain ⟨ts, htokens, n, hn, hd⟩ := Program.parse_eq_ok_iff.1 h
  have hproper := (spells_iff.2 ⟨ts, htokens, rfl⟩).proper
  exact ⟨hd.wellFormed hproper, Nat.le_trans hd.nestsWithin hn⟩

/-- Formatting what an engine accepts gives a text that the same engine accepts as the same tree
up to places, and that is its own format. -/
theorem Engine.parse_layout_of_parse {e : Engine} {t : Text} {p : Program}
    (h : e.parse t = .ok p) :
    ∃ p', e.parse (Text.ofString p.layout) = .ok p' ∧ p'.bare = p.bare ∧ p'.layout = p.layout := by
  obtain ⟨hp, hn⟩ := Program.wellFormed_of_parse h
  obtain ⟨p', hparse, hbare⟩ := Program.parse_layout hp hn
  refine ⟨p', hparse, hbare, ?_⟩
  rw [← p'.layout_bare, hbare, p.layout_bare]

/-- The outer parentheses are left out and the inner ones are kept. -/
theorem Engine.parse_layout_of_parse_group :
    ∃ p, Engine.parse ⟨3, .floor⟩ (Text.ofString "BEGIN x:=(1-(2-3)); END.") = .ok p ∧
      p.layout = "BEGIN\n  x := 1 - (2 - 3);\nEND.\n" ∧
      ∃ p', Engine.parse ⟨3, .floor⟩ (Text.ofString p.layout) = .ok p' ∧ p'.bare = p.bare ∧
        p'.layout = p.layout := by
  have h : (Engine.parse ⟨3, .floor⟩
      (Text.ofString "BEGIN x:=(1-(2-3)); END.")).toOption.map Program.layout =
        some "BEGIN\n  x := 1 - (2 - 3);\nEND.\n" := by decide +kernel
  obtain ⟨p, hp, hlayout⟩ := Program.exists_of_layout h
  exact ⟨p, hp, hlayout, Engine.parse_layout_of_parse hp⟩

end BlockCalc
