import BlockCalc.Proofs.Acceptance
import BlockCalc.Proofs.Inorder
import BlockCalc.Proofs.Tiling

/-!
# BlockCalc.Proofs.TreeTokens

A tree beside the tokens of its text. From left to right, the nodes of the tree are the tokens that
carry content, each at its own place. What the other tokens leave behind are the empty statements:
such a statement has no token of its own and is placed at the token that ends it. It can be seen in
the tokens where one that opens a statement is followed at once by one that closes it
(`emptyEnds`), and `Derives.emptyEnds` shows that the grammar sees the same.
-/

namespace BlockCalc

open Grammar

/-! ## Tokens that carry content -/

/-- Parentheses, separators, what closes, and the end carry no content. -/
def TokenKind.hasContent : TokenKind → Bool
  | .lparen => false
  | .rparen => false
  | .semi => false
  | .endWord => false
  | .dot => false
  | .eof => false
  | _ => true

/-- The kind, the place, and the name or the value. -/
def Listed.mark (x : Listed) : Mark :=
  ⟨x.kind, if x.kind = .ident then x.literal else "", x.value, x.pos⟩

/-- The listed tokens that carry content. -/
def contentMarks (xs : List Listed) : List Mark :=
  (xs.filter fun x => x.kind.hasContent).map Listed.mark

theorem Lexeme.hasContent_kind (l : Lexeme) : l.kind.hasContent = !l.isPunctuation := by
  cases l <;> rfl

theorem Token.mark_listed (t : Token) : t.listed.mark = t.mark := by
  obtain ⟨l, p⟩ := t
  cases l <;> rfl

theorem contentMarks_append (xs ys : List Listed) :
    contentMarks (xs ++ ys) = contentMarks xs ++ contentMarks ys := by
  simp only [contentMarks, List.filter_append, List.map_append]

theorem contentMarks_tokens (ts : List Token) :
    contentMarks (ts.map Token.listed) = marksOf ts := by
  rw [contentMarks, marksOf, List.filter_map, List.map_map]
  have hfilter : ((fun x : Listed => x.kind.hasContent) ∘ Token.listed) =
      fun t => !t.lexeme.isPunctuation := funext fun t => t.lexeme.hasContent_kind
  rw [hfilter]
  exact List.map_congr_left fun t _ => t.mark_listed

/-! ## Empty statements -/

mutual

/-- The places of the empty statements, from left to right. -/
def Stmt.emptyPlaces : Stmt → List Position
  | .block _ b => b.emptyPlaces
  | .assign _ _ _ _ => []
  | .empty p => [p]

def Stmts.emptyPlaces : Stmts → List Position
  | .one s => s.emptyPlaces
  | .cons s b => s.emptyPlaces ++ b.emptyPlaces

end

def Program.emptyPlaces (p : Program) : List Position := p.body.emptyPlaces

/-- A statement begins after `BEGIN` and after a semicolon. -/
def TokenKind.opensStatement : TokenKind → Bool
  | .beginWord => true
  | .semi => true
  | _ => false

/-- A statement is ended by a semicolon or by `END`. -/
def TokenKind.closesStatement : TokenKind → Bool
  | .semi => true
  | .endWord => true
  | _ => false

/-- The places of the tokens that close a statement where it was opened by the token before. -/
def emptyEnds : List Listed → List Position
  | x :: y :: rest =>
    if x.kind.opensStatement && y.kind.closesStatement then y.pos :: emptyEnds (y :: rest)
    else emptyEnds (y :: rest)
  | _ => []

/-- No statement begins after any of the tokens. -/
def OpenNone (xs : List Listed) : Prop := ∀ x ∈ xs, x.kind.opensStatement = false

section

variable {x y : Listed}

theorem emptyEnds_cons (h : x.kind.opensStatement = false) (rest : List Listed) :
    emptyEnds (x :: rest) = emptyEnds rest := by
  cases rest with
  | nil => rfl
  | cons y rest => simp [emptyEnds, h]

theorem emptyEnds_cons_cons (h : y.kind.closesStatement = false) (rest : List Listed) :
    emptyEnds (x :: y :: rest) = emptyEnds (y :: rest) := by
  simp [emptyEnds, h]

theorem emptyEnds_of_closes (hx : x.kind.opensStatement = true)
    (hy : y.kind.closesStatement = true) (rest : List Listed) :
    emptyEnds (x :: y :: rest) = y.pos :: emptyEnds (y :: rest) := by
  simp [emptyEnds, hx, hy]

theorem emptyEnds_append {xs : List Listed} (h : OpenNone xs) (rest : List Listed) :
    emptyEnds (xs ++ rest) = emptyEnds rest := by
  induction xs with
  | nil => rfl
  | cons x xs ih =>
    obtain ⟨hx, hxs⟩ := List.forall_mem_cons.1 h
    rw [List.cons_append, emptyEnds_cons hx, ih hxs]

end

namespace Grammar

/-- The empty statements of a phrase are those that its tokens `xs` show. Whether a statement is
empty can be seen only between the tokens around it. -/
def Phrase.Empties : Phrase → List Listed → Prop
  | .factor _, xs => OpenNone xs
  | .chain _ _, xs => OpenNone xs
  | .tail _ _ _, xs => OpenNone xs
  | .statement s next, xs => ∀ x y rest, x.kind.opensStatement = true →
      y.kind.closesStatement = true → y.pos = next →
      emptyEnds (x :: (xs ++ y :: rest)) = s.emptyPlaces ++ emptyEnds (y :: rest)
  | .statements b next, xs => ∀ x rest, x.kind.opensStatement = true →
      emptyEnds (x :: (xs ++ Token.listed ⟨.endWord, next⟩ :: rest)) =
        b.emptyPlaces ++ emptyEnds rest
  | .compound p b, xs => (∃ ys, xs = Token.listed ⟨.beginWord, p⟩ :: ys) ∧
      ∀ rest, emptyEnds (xs ++ rest) = b.emptyPlaces ++ emptyEnds rest
  | .program p, xs => ∀ rest, emptyEnds (xs ++ rest) = p.emptyPlaces ++ emptyEnds rest

theorem Phrase.empties_operand {k : Level} {e : Expr} {xs : List Listed} :
    (k.operand e).Empties xs ↔ OpenNone xs := by
  cases k <;> rfl

theorem Derives.empties {x : Phrase} {ts : List Token} {n : Nat} (h : Derives x ts n) :
    x.Empties (ts.map Token.listed) := by
  induction h with
  | integer => exact List.forall_mem_singleton.2 rfl
  | name => exact List.forall_mem_singleton.2 rfl
  | group _ ih =>
    rw [List.map_cons, List.map_append]
    exact List.forall_mem_cons.2
      ⟨rfl, List.forall_mem_append.2 ⟨ih, List.forall_mem_singleton.2 rfl⟩⟩
  | @sign s _ _ _ _ _ ih => exact List.forall_mem_cons.2 ⟨by cases s <;> rfl, ih⟩
  | chain _ _ ihl ih =>
    rw [List.map_append]
    exact List.forall_mem_append.2 ⟨Phrase.empties_operand.1 ihl, ih⟩
  | done => exact List.forall_mem_nil _
  | @more _ op _ _ _ _ _ _ _ _ _ _ _ ihr ih =>
    rw [List.map_cons, List.map_append]
    exact List.forall_mem_cons.2 ⟨by cases op <;> rfl,
      List.forall_mem_append.2 ⟨Phrase.empties_operand.1 ihr, ih⟩⟩
  | empty =>
    rintro x y rest hx hy rfl
    exact emptyEnds_of_closes hx hy rest
  | assign _ ih =>
    intro x y rest _ _ _
    simp only [List.map_cons, List.cons_append]
    rw [emptyEnds_cons_cons rfl, emptyEnds_cons rfl, emptyEnds_cons rfl, emptyEnds_append ih]
    rfl
  | block _ ih =>
    intro x y rest _ _ _
    obtain ⟨⟨ys, hys⟩, hempties⟩ := ih
    have hall := hempties (y :: rest)
    rw [hys, List.cons_append] at hall ⊢
    rw [emptyEnds_cons_cons rfl]
    exact hall
  | @one _ _ _ next _ ih =>
    intro x rest hx
    rw [ih x (Token.listed ⟨.endWord, next⟩) rest hx rfl rfl, emptyEnds_cons rfl]
    rfl
  | @cons _ _ _ _ _ _ q _ _ _ ihs ih =>
    intro x rest hx
    rw [List.map_append, List.append_assoc, List.map_cons, List.cons_append,
      ihs x (Token.listed ⟨.semi, q⟩) _ hx rfl rfl, ih _ rest rfl, ← List.append_assoc]
    rfl
  | compound _ ih =>
    refine ⟨⟨_, rfl⟩, fun rest => ?_⟩
    rw [List.map_cons, List.map_append, List.cons_append, List.append_assoc]
    exact ih _ rest rfl
  | program _ ih =>
    intro rest
    rw [List.map_append, List.append_assoc, ih.2, List.map_singleton, List.singleton_append,
      emptyEnds_cons rfl]
    rfl

end Grammar

/-! ## Whole texts -/

theorem Tokenized.listing {t : Text} {ts : List Token} (h : Tokenized t ts) :
    (Scan.ofText t).error? = none ∧
      ∃ q, (Scan.ofText t).listing = ts.map Token.listed ++ [⟨.eof, "", 0, q⟩] := by
  obtain ⟨q, hq⟩ := h
  rw [hq]
  exact ⟨rfl, q, rfl⟩

theorem Tokenized.contentMarks {t : Text} {ts : List Token} (h : Tokenized t ts) :
    contentMarks (Scan.ofText t).listing = marksOf ts := by
  obtain ⟨_, q, hq⟩ := h.listing
  rw [hq, contentMarks_append, contentMarks_tokens]
  exact List.append_nil _

/-- Every token that carries content is in the tree of an accepted text once, in order and with its
own place: read from left to right, the tree is the listed tokens without parentheses, separators,
what closes, and the end. Its empty statements are placed at the tokens that end them, the
semicolons and `END`s that directly follow a `BEGIN` or a semicolon, and there is one for each. -/
theorem Engine.marks_of_accepted (e : Engine) (t : Text) :
    (∀ p, e.parse t = .ok p → (Scan.ofText t).error? = none ∧
      p.marks = contentMarks (Scan.ofText t).listing ∧
      p.emptyPlaces = emptyEnds (Scan.ofText t).listing) ∧
    ∀ x, e.parseExpression t = .ok x → (Scan.ofText t).error? = none ∧
      x.marks = contentMarks (Scan.ofText t).listing := by
  constructor
  · intro p hp
    obtain ⟨ts, hts, n, _, hd⟩ := Program.parse_eq_ok_iff.1 hp
    obtain ⟨herror, q, hq⟩ := hts.listing
    refine ⟨herror, hd.marks.trans hts.contentMarks.symm, ?_⟩
    rw [hq, hd.empties]
    exact (List.append_nil _).symm
  · intro x hx
    obtain ⟨ts, hts, n, _, hd⟩ := Expr.parse_eq_ok_iff.1 hx
    exact ⟨hts.listing.1, hd.marks.trans hts.contentMarks.symm⟩

/-- Three empty statements: one before a semicolon, the other two before each `END`. The chain of
operators hangs to the left, and its tokens still come in order. -/
theorem Engine.marks_of_accepted_chain :
    let t := Text.ofString "BEGIN ; x := (1 - y) *\n2 / 3 ; BEGIN END ; END."
    ∃ p, (⟨2, .floor⟩ : Engine).parse t = .ok p ∧
      p.marks.map (fun m => (m.kind, m.pos)) =
        [(.beginWord, ⟨1, 1⟩), (.ident, ⟨1, 9⟩), (.assign, ⟨1, 11⟩), (.integer, ⟨1, 15⟩),
          (.minus, ⟨1, 17⟩), (.ident, ⟨1, 19⟩), (.star, ⟨1, 22⟩), (.integer, ⟨2, 1⟩),
          (.slash, ⟨2, 3⟩), (.integer, ⟨2, 5⟩), (.beginWord, ⟨2, 9⟩)] ∧
      p.emptyPlaces = [⟨1, 7⟩, ⟨2, 15⟩, ⟨2, 21⟩] := by
  intro t
  have h : ((⟨2, .floor⟩ : Engine).parse t).toOption.map (fun _ => ()) = some () := by
    decide +kernel
  obtain ⟨p, hp, _⟩ := exists_of_toOption_map h
  obtain ⟨_, hmarks, hempty⟩ := (Engine.marks_of_accepted ⟨2, .floor⟩ t).1 p hp
  refine ⟨p, hp, ?_, ?_⟩
  · rw [hmarks]
    decide +kernel
  · rw [hempty]
    decide +kernel

end BlockCalc
