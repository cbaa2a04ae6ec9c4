import BlockCalc.Proofs.Inorder
import BlockCalc.Proofs.Layout
import BlockCalc.Proofs.TreePlaces

/-!
# BlockCalc.Proofs.Parentheses

Canonical source against every other source of the same tree: it is what is left when some
parentheses are deleted, so it has the fewest of all (`Engine.layoutProgram_drops_parens`).

The induction is on the derivation. A derivation may put any factor in parentheses, and the
canonical lexemes keep them only around an operator that its slot does not admit.
-/

namespace BlockCalc

open Grammar

/-- What a lexeme says, apart from how a number is written. -/
def Lexeme.gist (l : Lexeme) : TokenKind × String × Int64 := (l.kind, l.name, l.value)

def Lexeme.isParen : Lexeme → Bool
  | .lparen => true
  | .rparen => true
  | _ => false

/-- The second list is what is left of the first when some parentheses are deleted. -/
inductive ParensDropped : List Lexeme → List Lexeme → Prop where
  | nil : ParensDropped [] []
  | keep {l l' : Lexeme} {ls ls' : List Lexeme} :
      l.gist = l'.gist → ParensDropped ls ls' → ParensDropped (l :: ls) (l' :: ls')
  | drop {l : Lexeme} {ls ls' : List Lexeme} :
      l.isParen = true → ParensDropped ls ls' → ParensDropped (l :: ls) ls'

namespace ParensDropped

theorem refl : ∀ ls : List Lexeme, ParensDropped ls ls
  | [] => .nil
  | _ :: ls => .keep rfl (refl ls)

theorem append {ls ls' ms ms' : List Lexeme} (h : ParensDropped ls ls')
    (hms : ParensDropped ms ms') : ParensDropped (ls ++ ms) (ls' ++ ms') := by
  induction h with
  | nil => exact hms
  | keep hl _ ih => exact .keep hl ih
  | drop hl _ ih => exact .drop hl ih

theorem isParen_of_gist {l l' : Lexeme} (h : l.gist = l'.gist) : l.isParen = l'.isParen := by
  have hkind : l.kind = l'.kind := congrArg Prod.fst h
  cases l <;> cases l' <;> first | rfl | cases hkind

theorem trans {ls ms ns : List Lexeme} (h : ParensDropped ls ms) (h' : ParensDropped ms ns) :
    ParensDropped ls ns := by
  induction h generalizing ns with
  | nil => exact h'
  | drop hl _ ih => exact .drop hl (ih h')
  | keep hl _ ih =>
    cases h' with
    | keep hm hms => exact .keep (hl.trans hm) (ih hms)
    | drop hm hms => exact .drop ((isParen_of_gist hl).trans hm) (ih hms)

theorem countP_le {ls ms : List Lexeme} (h : ParensDropped ls ms) :
    ms.countP Lexeme.isParen ≤ ls.countP Lexeme.isParen := by
  induction h with
  | nil => exact Nat.le_refl _
  | keep hl _ ih =>
    rw [List.countP_cons, List.countP_cons, isParen_of_gist hl]
    exact Nat.add_le_add_right ih _
  | drop hl _ ih =>
    rw [List.countP_cons_of_pos hl]
    exact Nat.le_succ_of_le ih

theorem group {ls ms : List Lexeme} (h : ParensDropped ls ms) :
    ParensDropped (.lparen :: (ls ++ [.rparen])) (.lparen :: (ms ++ [.rparen])) :=
  .keep rfl (h.append (refl [.rparen]))

theorem ungroup {ls ms : List Lexeme} (h : ParensDropped ls ms) :
    ParensDropped (.lparen :: (ls ++ [.rparen])) ms := by
  have hclose : ParensDropped [Lexeme.rparen] [] := .drop rfl .nil
  exact .drop rfl (by simpa using h.append hclose)

end ParensDropped

/-! ## Canonical lexemes in their slots -/

/-- As a factor an expression may need parentheses that it does not need alone. -/
theorem Expr.spelling_factor (e : Expr) :
    e.spelling .factor = e.spelling (.chain .sum) ∨
      e.spelling .factor = .lparen :: (e.spelling (.chain .sum) ++ [.rparen]) := by
  cases e with
  | binary op l r p => exact .inr rfl
  | _ => exact .inl rfl

/-- An operand that stands alone in a chain needs at most the parentheses of an operand. -/
theorem Expr.spelling_slot (e : Expr) (k : Level) :
    ParensDropped (e.spelling k.slot) (e.spelling (.chain k)) := by
  cases e with
  | binary op l r p =>
    simp only [spelling]
    generalize l.spelling (.chain op.level) ++ op.lexeme :: r.spelling op.level.slot = chain
    cases k <;> cases op <;> first | exact .refl _ | exact (ParensDropped.refl chain).ungroup
  | _ => exact .refl _

theorem Expr.spelling_binary (op : BinaryOp) (l r : Expr) (p : Position) :
    (Expr.binary op l r p).spelling (.chain op.level) =
      l.spelling (.chain op.level) ++ op.lexeme :: r.spelling op.level.slot := by
  simp only [spelling, Slot.admits_level, if_true]

namespace Grammar

/-- The lexemes `ls` become the canonical ones of the phrase when parentheses are deleted. The
operators after an operand do so together with the lexemes of the operand. -/
def Phrase.DropsTo : Phrase → List Lexeme → Prop
  | .factor e, ls => ParensDropped ls (e.spelling .factor)
  | .chain k e, ls => ParensDropped ls (e.spelling (.chain k))
  | .tail k l e, ls => ∀ {ms}, ParensDropped ms (l.spelling (.chain k)) →
      ParensDropped (ms ++ ls) (e.spelling (.chain k))
  | .statement s _, ls => ParensDropped ls s.spelling
  | .statements b _, ls => ParensDropped ls b.spelling
  | .compound _ b, ls => ParensDropped ls (.beginWord :: (b.spelling ++ [.endWord]))
  | .program p, ls => ParensDropped ls p.spelling

theorem Phrase.dropsTo_operand {k : Level} {e : Expr} {ls : List Lexeme} :
    (k.operand e).DropsTo ls ↔ ParensDropped ls (e.spelling k.slot) := by
  cases k <;> rfl

theorem Derives.dropsTo {x : Phrase} {ts : List Token} {n : Nat} (h : Derives x ts n) :
    x.DropsTo (lexemes ts) := by
  induction h with
  | integer => exact .keep rfl .nil
  | name => exact .keep rfl .nil
  | @group e ts n p q _ ih =>
    have ih : ParensDropped (lexemes ts) (e.spelling (.chain .sum)) := ih
    simp only [Phrase.DropsTo, lexemes_cons, lexemes_append, lexemes_nil]
    rcases e.spelling_factor with h | h <;> rw [h]
    · exact ih.ungroup
    · exact ih.group
  | sign _ ih => exact .keep rfl ih
  | @chain k l e ts us m n _ _ ihl ih =>
    -- the first operand begins the chain, where it may need fewer parentheses than as an operand
    rw [lexemes_append]
    exact ih ((Phrase.dropsTo_operand.1 ihl).trans (l.spelling_slot k))
  | done => intro ms hms; simpa using hms
  | @more k op l r e ts us m n p hk _ _ ihr ih =>
    subst hk
    intro ms hms
    have hbinary := hms.append (.keep (l := op.lexeme) rfl (Phrase.dropsTo_operand.1 ihr))
    rw [← Expr.spelling_binary op l r p] at hbinary
    simpa using ih hbinary
  | empty => exact .nil
  | assign _ ih => exact .keep rfl (.keep rfl ih)
  | block _ ih => exact ih
  | one _ ih => exact ih
  | cons _ _ ihs ih =>
    rw [lexemes_append]
    exact ParensDropped.append ihs (.keep rfl ih)
  | compound _ ih =>
    rw [lexemes_cons, lexemes_append]
    exact .keep rfl (ParensDropped.append ih (.refl _))
  | program _ ih =>
    rw [lexemes_append]
    simpa [Phrase.DropsTo, Program.spelling] using ParensDropped.append ih (.refl [.dot])

end Grammar

/-! ## Whole texts -/

theorem Program.layout_eq_of_bare {q : Program} {body : List Tree} {pos : Position}
    (h : q.toTree.bare = (Tree.program body pos).bare) : Tree.layoutProgram body = q.layout := by
  obtain ⟨p, hp, hbare⟩ := Program.exists_of_bare h.symm
  cases hp
  rw [← q.layout_bare, ← hbare, p.layout_bare, Program.layout]

/-- Canonical source of a tree has the tokens of any source of that tree, without some of its
parentheses. It is a source of the tree itself, so no other has fewer. -/
theorem Engine.layoutProgram_drops_parens {body : List Tree} {pos : Position} {e : Engine}
    {src : List UInt8} {q : Program} (hq : e.parse (Text.ofBytes src) = .ok q)
    (htree : q.toTree.bare = (Tree.program body pos).bare) :
    ∃ ts, Tokenized (Text.ofString (Tree.layoutProgram body)) ts ∧
      ParensDropped (lexemes (Scan.ofText (Text.ofBytes src)).tokens) (lexemes ts) ∧
      (lexemes ts).countP Lexeme.isParen ≤
        (lexemes (Scan.ofText (Text.ofBytes src)).tokens).countP Lexeme.isParen ∧
      ∃ p, e.parse (Text.ofString (Tree.layoutProgram body)) = .ok p ∧
        p.toTree.bare = (Tree.program body pos).bare := by
  rw [Program.layout_eq_of_bare htree, ← htree]
  obtain ⟨hwf, hnesting⟩ := Program.wellFormed_of_parse hq
  obtain ⟨us, ⟨_, hus⟩, n, _, hd⟩ := Program.parse_eq_ok_iff.1 hq
  obtain ⟨ts, hts, hspelling⟩ := spells_iff.1 (q.spells_layout hwf)
  have hdrops : ParensDropped (lexemes us) (lexemes ts) := by
    rw [hspelling]
    exact hd.dropsTo
  obtain ⟨p, hp, hbare⟩ := Program.parse_layout hwf hnesting
  rw [hus]
  exact ⟨ts, hts, hdrops, hdrops.countP_le, p, hp, by rw [p.bare_toTree, q.bare_toTree, hbare]⟩

/-- Of four pairs of parentheses one is left. -/
theorem Engine.layoutProgram_drops_parens_product :
    ∃ q, Engine.parse ⟨4, .floor⟩
        (Text.ofBytes "BEGIN x:=(((01)+2)*(y)) END.".toUTF8.toList) = .ok q ∧
      Tree.layoutProgram q.body.toTrees = "BEGIN\n  x := (1 + 2) * y\nEND.\n" ∧
      ∃ ts, Tokenized (Text.ofString (Tree.layoutProgram q.body.toTrees)) ts ∧
        ParensDropped (lexemes (Scan.ofText
          (Text.ofBytes "BEGIN x:=(((01)+2)*(y)) END.".toUTF8.toList)).tokens) (lexemes ts) := by
  have h : (Engine.parse ⟨4, .floor⟩
      (Text.ofBytes "BEGIN x:=(((01)+2)*(y)) END.".toUTF8.toList)).toOption.map Program.layout =
        some "BEGIN\n  x := (1 + 2) * y\nEND.\n" := by decide +kernel
  obtain ⟨q, hq, hlayout⟩ := Program.exists_of_layout h
  have htree : q.toTree.bare = (Tree.program q.body.toTrees q.pos).bare := rfl
  obtain ⟨ts, hts, hdrops, _⟩ := Engine.layoutProgram_drops_parens hq htree
  exact ⟨q, hq, hlayout, ts, hts, hdrops⟩

end BlockCalc
