import BlockCalc.Proofs.TreeSource

/-!
# BlockCalc.Proofs.PrefixForm

The prefix form of a tree tells the tree but for the places of its nodes.

The text is that of a *form*: a word, or a head with parts in parentheses. What parentheses and
spaces leave are words, so no text is that of two forms, and a form ends where its text does,
whatever follows (`Form.text_append_inj`). A form can be read back as a tree (`Form.tree`): words
that begin with a letter are variables and the others are numbers, and a node is told by its head
and the number of its parts.
-/

namespace BlockCalc

/-! ## Forms and their texts -/

/-- A word, or a head with its parts in parentheses. -/
inductive Form where
  | word (w : Text)
  | node (head : Text) (parts : List Form)

namespace Form

mutual

def text : Form → Text
  | .word w => w
  | .node head parts => .char '(' :: (head ++ textAfter parts)

/-- The parts of a node, each after a space, and the parenthesis that closes it. -/
def textAfter : List Form → Text
  | [] => [.char ')']
  | f :: rest => .char ' ' :: (f.text ++ textAfter rest)

end

end Form

/-- Neither a space nor a parenthesis. -/
def Glyph.isSolid (g : Glyph) : Bool := g != .char ' ' && g != .char '(' && g != .char ')'

/-- A text without spaces and parentheses that is not empty. -/
def Solid (w : Text) : Prop := w ≠ [] ∧ ∀ g ∈ w, g.isSolid = true

theorem Solid.append_inj {w v r s : Text} (hw : Solid w) (hv : Solid v)
    (hr : Text.StopsAt Glyph.isSolid r) (hs : Text.StopsAt Glyph.isSolid s)
    (h : w ++ r = v ++ s) : w = v ∧ r = s := by
  have htake := congrArg (List.takeWhile Glyph.isSolid) h
  have hdrop := congrArg (List.dropWhile Glyph.isSolid) h
  rw [Text.takeWhile_run hw.2 hr, Text.takeWhile_run hv.2 hs] at htake
  rw [Text.dropWhile_run hw.2 hr, Text.dropWhile_run hv.2 hs] at hdrop
  exact ⟨htake, hdrop⟩

theorem Solid.ne_cons_of_not_isSolid {w r : Text} {g : Glyph} (hw : Solid w)
    (hg : g.isSolid = false) (s : Text) : w ++ r ≠ g :: s := by
  intro h
  obtain ⟨g', w', rfl⟩ := List.exists_cons_of_ne_nil hw.1
  obtain ⟨rfl, _⟩ := List.cons.inj h
  simp [hw.2 g' List.mem_cons_self] at hg

namespace Form

mutual

/-- The words and the heads of a form are solid. -/
def IsSolid : Form → Prop
  | .word w => Solid w
  | .node head parts => Solid head ∧ AreSolid parts

def AreSolid : List Form → Prop
  | [] => True
  | f :: rest => f.IsSolid ∧ AreSolid rest

end

theorem stopsAt_textAfter (parts : List Form) (r : Text) :
    Text.StopsAt Glyph.isSolid (textAfter parts ++ r) := by
  cases parts with
  | nil => intro g hg; cases hg; rfl
  | cons f rest => intro g hg; cases hg; rfl

mutual

/-- The text of a form tells the form and where it ends. -/
theorem text_append_inj : ∀ {a b : Form} {r s : Text}, a.IsSolid → b.IsSolid →
    Text.StopsAt Glyph.isSolid r → Text.StopsAt Glyph.isSolid s →
    a.text ++ r = b.text ++ s → a = b ∧ r = s
  | .word w, .word v, r, s, ha, hb, hr, hs, h => by
    obtain ⟨rfl, hrest⟩ := Solid.append_inj ha hb hr hs h
    exact ⟨rfl, hrest⟩
  | .word w, .node head parts, r, s, ha, hb, hr, hs, h =>
    absurd h (Solid.ne_cons_of_not_isSolid ha rfl _)
  | .node head parts, .word w, r, s, ha, hb, hr, hs, h =>
    absurd h.symm (Solid.ne_cons_of_not_isSolid hb rfl _)
  | .node head parts, .node head' parts', r, s, ha, hb, hr, hs, h => by
    simp only [text, List.cons_append, List.append_assoc, List.cons.injEq, true_and] at h
    obtain ⟨rfl, hrest⟩ := Solid.append_inj ha.1 hb.1 (stopsAt_textAfter _ _)
      (stopsAt_textAfter _ _) h
    obtain ⟨rfl, hrs⟩ := textAfter_append_inj ha.2 hb.2 hrest
    exact ⟨rfl, hrs⟩

theorem textAfter_append_inj : ∀ {fs gs : List Form} {r s : Text}, AreSolid fs → AreSolid gs →
    textAfter fs ++ r = textAfter gs ++ s → fs = gs ∧ r = s
  | [], [], r, s, _, _, h => by
    obtain ⟨_, hrs⟩ := List.cons.inj h
    exact ⟨rfl, hrs⟩
  | [], g :: gs, r, s, _, _, h => nomatch h
  | f :: fs, [], r, s, _, _, h => nomatch h
  | f :: fs, g :: gs, r, s, hf, hg, h => by
    simp only [textAfter, List.cons_append, List.append_assoc, List.cons.injEq, true_and] at h
    obtain ⟨rfl, hrest⟩ := text_append_inj hf.1 hg.1 (stopsAt_textAfter _ _)
      (stopsAt_textAfter _ _) h
    obtain ⟨rfl, hrs⟩ := textAfter_append_inj hf.2 hg.2 hrest
    exact ⟨rfl, hrs⟩

end

theorem text_inj {a b : Form} (ha : a.IsSolid) (hb : b.IsSolid) (h : a.text = b.text) : a = b :=
  (text_append_inj ha hb (Text.stopsAt_nil _) (Text.stopsAt_nil _)
    (congrArg (· ++ ([] : Text)) h)).1

end Form

/-! ## The form of a tree -/

namespace Tree

mutual

def form : Tree → Form
  | .missing => .node (Text.ofString "unknown") [.word (Text.ofString "<nil>")]
  | .int v _ => .word (Text.ofString (numeral v))
  | .var x _ => .word (Text.ofString x)
  | .unary op e _ => .node (Text.ofString op.symbol) [e.form]
  | .binary op l r _ => .node (Text.ofString op.symbol) [l.form, r.form]
  | .assign x _ e _ => .node (Text.ofString "assign") [.word (Text.ofString x), e.form]
  | .noop _ => .node (Text.ofString "noop") []
  | .compound body _ => .node (Text.ofString "compound") (forms body)
  | .program body _ => .node (Text.ofString "program")
      [.node (Text.ofString "compound") (forms body)]

def forms : List Tree → List Form
  | [] => []
  | t :: rest => t.form :: forms rest

end

mutual

theorem ofString_polish : ∀ t : Tree, Text.ofString t.polish = t.form.text
  | .missing => by rw [polish.eq_def]; rfl
  | .int v p => by rw [polish.eq_def]; rfl
  | .var x p => by rw [polish.eq_def]; rfl
  | .unary op e p => by
    rw [polish.eq_def]
    simp only [Text.ofString_append, ofString_polish e, List.append_assoc]
    rfl
  | .binary op l r p => by
    rw [polish.eq_def]
    simp only [Text.ofString_append, ofString_polish l, ofString_polish r, List.append_assoc]
    rfl
  | .assign x q e p => by
    rw [polish.eq_def]
    simp only [Text.ofString_append, ofString_polish e, List.append_assoc]
    rfl
  | .noop p => by
    rw [polish.eq_def, form.eq_def]
    simp only [Form.text, Form.textAfter]
    rfl
  | .compound body p => by
    have hbody : Text.ofString (polishAll body) ++ Text.ofString ")" = _ := ofString_polishAll body
    rw [polish.eq_def]
    simp only [Text.ofString_append, List.append_assoc, hbody]
    rfl
  | .program body p => by
    have hbody : Text.ofString (polishAll body) ++ Text.ofString "))" =
        Form.textAfter (forms body) ++ [.char ')'] := by
      rw [← ofString_polishAll body, List.append_assoc]
      rfl
    rw [polish.eq_def]
    simp only [Text.ofString_append, List.append_assoc, hbody]
    rw [form.eq_def]
    simp only [Form.text, Form.textAfter, List.cons_append, List.append_assoc]
    rfl

theorem ofString_polishAll : ∀ ts : List Tree,
    Text.ofString (polishAll ts) ++ [.char ')'] = Form.textAfter (forms ts)
  | [] => rfl
  | t :: rest => by
    rw [polishAll.eq_def]
    simp only [Text.ofString_append, ofString_polish t, List.append_assoc, ofString_polishAll rest]
    rfl

end

mutual

/-- Names are words, and operators stand for operations with as many operands as they have. Any
number may be a literal, a block may be empty, and statements and expressions may stand in each
other's place. -/
def Proper : Tree → Prop
  | .missing => False
  | .int _ _ => True
  | .var x _ => IsWord (Text.ofString x)
  | .unary op e _ => op ∈ [TokenKind.plus, .minus] ∧ e.Proper
  | .binary op l r _ => op ∈ [TokenKind.plus, .minus, .star, .slash] ∧ l.Proper ∧ r.Proper
  | .assign x _ e _ => IsWord (Text.ofString x) ∧ e.Proper
  | .noop _ => True
  | .compound body _ => AreProper body
  | .program body _ => AreProper body

def AreProper : List Tree → Prop
  | [] => True
  | t :: rest => t.Proper ∧ AreProper rest

end

end Tree

/-! ## Words -/

theorem Glyph.isSolid_of_isWordPart {g : Glyph} (h : g.isWordPart = true) : g.isSolid = true := by
  simp only [isSolid, Bool.and_eq_true, bne_iff_ne]
  refine ⟨⟨?_, ?_⟩, ?_⟩ <;> (rintro rfl; revert h; decide)

theorem IsWord.solid {w : Text} (h : IsWord w) : Solid w := by
  refine ⟨?_, fun g hg => Glyph.isSolid_of_isWordPart (h.isWordPart g hg)⟩
  obtain ⟨g, rest, rfl, _⟩ := h
  exact List.cons_ne_nil g rest

theorem IsNumeral.solid {w : Text} (h : IsNumeral w) : Solid w :=
  ⟨h.1, fun g hg => Glyph.isSolid_of_isWordPart (Glyph.isWordPart_of_isAsciiDigit (h.2 g hg))⟩

/-- A number is printed as digits, after a sign where it is negative. -/
theorem numeral_cases (v : Int64) :
    (∃ n : Nat, v.toInt = n ∧ Text.ofString (numeral v) = Text.ofString n.repr) ∨
      ∃ n : Nat, v.toInt = -n ∧ Text.ofString (numeral v) = .char '-' :: Text.ofString n.repr := by
  have hnumeral : numeral v = v.toInt.repr := rfl
  rw [hnumeral]
  cases v.toInt with
  | ofNat n => exact .inl ⟨n, rfl, rfl⟩
  | negSucc n => exact .inr ⟨n + 1, rfl, by rw [Int.repr, Text.ofString_append]; rfl⟩

theorem solid_numeral (v : Int64) : Solid (Text.ofString (numeral v)) := by
  rcases numeral_cases v with ⟨n, _, hv⟩ | ⟨n, _, hv⟩
  · rw [hv]
    exact (isNumeral_repr n).solid
  · rw [hv]
    exact ⟨List.cons_ne_nil _ _, List.forall_mem_cons.2 ⟨rfl, (isNumeral_repr n).solid.2⟩⟩

theorem solid_symbol {op : TokenKind} (h : op ∈ [TokenKind.plus, .minus, .star, .slash]) :
    Solid (Text.ofString op.symbol) := by
  obtain ⟨o, rfl⟩ := Tree.exists_binaryOp h
  cases o <;> exact ⟨by decide, by decide⟩

mutual

theorem Tree.isSolid_form : ∀ {t : Tree}, t.Proper → t.form.IsSolid
  | .int v p, _ => solid_numeral v
  | .var x p, h => IsWord.solid h
  | .unary op e p, h =>
    ⟨solid_symbol (List.mem_append_left [TokenKind.star, .slash] h.1), isSolid_form h.2, trivial⟩
  | .binary op l r p, h => ⟨solid_symbol h.1, isSolid_form h.2.1, isSolid_form h.2.2, trivial⟩
  | .assign x q e p, h => ⟨⟨by decide, by decide⟩, h.1.solid, isSolid_form h.2, trivial⟩
  | .noop p, _ => ⟨⟨by decide, by decide⟩, trivial⟩
  | .compound body p, h => ⟨⟨by decide, by decide⟩, Tree.areSolid_forms h⟩
  | .program body p, h =>
    ⟨⟨by decide, by decide⟩, ⟨⟨by decide, by decide⟩, Tree.areSolid_forms h⟩, trivial⟩

theorem Tree.areSolid_forms : ∀ {ts : List Tree}, AreProper ts → Form.AreSolid (forms ts)
  | [], _ => trivial
  | _ :: _, h => ⟨isSolid_form h.1, areSolid_forms h.2⟩

end

/-! ## Reading a form back -/

/-- The number that digits denote, or a sign and digits. -/
def signedDecimal (w : Text) : Int :=
  if w.head? = some (.char '-') then -decimal w.tail else decimal w

/-- What a word stands for as a tree. -/
def wordTree (w : Text) : Tree :=
  if w.head?.any Glyph.isLetter then .var (Text.toString w) .nowhere
  else .int (Int64.ofInt (signedDecimal w)) .nowhere

def TokenKind.ofSymbol : String → TokenKind
  | "+" => .plus
  | "-" => .minus
  | "*" => .star
  | "/" => .slash
  | s => .other s

/-- What a head with parts stands for as a tree. -/
def nodeTree : String → List Tree → Tree
  | "noop", [] => .noop .nowhere
  | "compound", body => .compound body .nowhere
  | "program", [.compound body _] => .program body .nowhere
  | "assign", [.var x _, e] => .assign x .nowhere e .nowhere
  | op, [e] => .unary (.ofSymbol op) e .nowhere
  | op, [l, r] => .binary (.ofSymbol op) l r .nowhere
  | _, _ => .missing

namespace Form

mutual

def tree : Form → Tree
  | .word w => wordTree w
  | .node head parts => nodeTree (Text.toString head) (trees parts)

def trees : List Form → List Tree
  | [] => []
  | f :: rest => f.tree :: trees rest

end

end Form

theorem wordTree_name {x : String} (h : IsWord (Text.ofString x)) :
    wordTree (Text.ofString x) = .var x .nowhere := by
  have hletter : (Text.ofString x).head?.any Glyph.isLetter = true := by
    obtain ⟨g, rest, hx, hg, _⟩ := h
    rw [hx]
    exact hg
  rw [wordTree, if_pos hletter, Text.toString_ofString]

theorem IsNumeral.head {w : Text} (h : IsNumeral w) :
    ∃ g, w.head? = some g ∧ g.isAsciiDigit = true := by
  obtain ⟨g, rest, rfl⟩ := List.exists_cons_of_ne_nil h.1
  exact ⟨g, rfl, h.2 g List.mem_cons_self⟩

theorem wordTree_numeral (v : Int64) : wordTree (Text.ofString (numeral v)) = .int v .nowhere := by
  have hsame : ∀ w : Text, w.head?.any Glyph.isLetter = false → signedDecimal w = v.toInt →
      wordTree w = .int v .nowhere := by
    intro w hletter hvalue
    rw [wordTree, hletter, hvalue, Int64.ofInt_toInt]
    rfl
  rcases numeral_cases v with ⟨n, hn, hv⟩ | ⟨n, hn, hv⟩
  · obtain ⟨g, hg, hdigit⟩ := (isNumeral_repr n).head
    have hminus : g ≠ .char '-' := by rintro rfl; cases hdigit
    rw [hv]
    refine hsame _ ?_ ?_
    · rw [hg]
      exact Glyph.not_isLetter_of_isAsciiDigit hdigit
    · rw [signedDecimal, hg, if_neg (by simpa using hminus), decimal_repr, hn]
  · have hvalue : signedDecimal (.char '-' :: Text.ofString n.repr) = v.toInt := by
      rw [signedDecimal, if_pos List.head?_cons, List.tail_cons, decimal_repr, hn]
    rw [hv]
    exact hsame _ rfl hvalue

theorem nodeTree_unary {op : TokenKind} (h : op ∈ [TokenKind.plus, .minus]) (e : Tree) :
    nodeTree op.symbol [e] = .unary op e .nowhere := by
  obtain ⟨s, rfl⟩ := Tree.exists_sign h
  cases s <;> rfl

theorem nodeTree_binary {op : TokenKind} (h : op ∈ [TokenKind.plus, .minus, .star, .slash])
    (l r : Tree) : nodeTree op.symbol [l, r] = .binary op l r .nowhere := by
  obtain ⟨o, rfl⟩ := Tree.exists_binaryOp h
  cases o <;> rfl

namespace Tree

mutual

/-- The form of a tree is read back as the tree without its places. -/
theorem tree_form : ∀ {t : Tree}, t.Proper → t.form.tree = t.bare
  | .int v p, _ => wordTree_numeral v
  | .var x p, h => wordTree_name h
  | .unary op e p, h => by
    simp only [form, Form.tree, Form.trees, Text.toString_ofString, tree_form h.2, bare]
    exact nodeTree_unary h.1 _
  | .binary op l r p, h => by
    simp only [form, Form.tree, Form.trees, Text.toString_ofString, tree_form h.2.1,
      tree_form h.2.2, bare]
    exact nodeTree_binary h.1 _ _
  | .assign x q e p, h => by
    simp only [form, Form.tree, Form.trees, Text.toString_ofString, tree_form h.2,
      wordTree_name h.1, bare]
    rfl
  | .noop p, _ => by
    simp only [form, Form.tree, Form.trees, Text.toString_ofString, bare]
    rfl
  | .compound body p, h => by
    have hbody : AreProper body := h
    simp only [form, Form.tree, Text.toString_ofString, trees_forms hbody, bare]
    rfl
  | .program body p, h => by
    have hbody : AreProper body := h
    simp only [form, Form.tree, Form.trees, Text.toString_ofString, trees_forms hbody, bare]
    rfl

theorem trees_forms : ∀ {ts : List Tree}, AreProper ts → Form.trees (forms ts) = bareAll ts
  | [], _ => rfl
  | t :: rest, h => by
    simp only [forms, Form.trees, bareAll, tree_form h.1, trees_forms h.2]

end

mutual

theorem form_bare : ∀ t : Tree, t.bare.form = t.form
  | .missing => rfl
  | .int v p => rfl
  | .var x p => rfl
  | .unary op e p => by simp only [bare, form, form_bare e]
  | .binary op l r p => by simp only [bare, form, form_bare l, form_bare r]
  | .assign x q e p => by simp only [bare, form, form_bare e]
  | .noop p => by simp only [bare, form]
  | .compound body p => by simp only [bare, form, forms_bareAll body]
  | .program body p => by simp only [bare, form, forms_bareAll body]

theorem forms_bareAll : ∀ ts : List Tree, forms (bareAll ts) = forms ts
  | [] => rfl
  | t :: rest => by simp only [bareAll, forms, form_bare t, forms_bareAll rest]

end

/-- Two proper trees have the same prefix form exactly when they are equal up to places. -/
theorem polish_eq_iff {a b : Tree} (ha : a.Proper) (hb : b.Proper) :
    a.polish = b.polish ↔ a.bare = b.bare := by
  constructor
  · intro h
    have htext : a.form.text = b.form.text := by
      rw [← ofString_polish, ← ofString_polish, h]
    have hform := Form.text_inj (isSolid_form ha) (isSolid_form hb) htext
    rw [← tree_form ha, ← tree_form hb, hform]
  · intro h
    have hform : a.form = b.form := by rw [← form_bare a, ← form_bare b, h]
    rw [← Text.toString_ofString a.polish, ← Text.toString_ofString b.polish, ofString_polish,
      ofString_polish, hform]

/-- A minus before a number is not the sign of the number, and a variable may be called like a
statement. -/
theorem polish_eq_iff_minus :
    let p : Position := ⟨1, 1⟩
    let a : Tree := .program [.assign "noop" p (.unary .minus (.int 1 p) p) p, .compound [] p] p
    let b : Tree := .program [.assign "noop" p (.int (-1) p) p, .compound [] p] p
    a.Proper ∧ b.Proper ∧ a.polish ≠ b.polish := by
  intro p a b
  have hnoop : IsWord (Text.ofString "noop") :=
    ⟨.char 'n', Text.ofString "oop", by decide, by decide, by decide⟩
  have ha : a.Proper := ⟨⟨hnoop, by decide, trivial⟩, trivial, trivial⟩
  have hb : b.Proper := ⟨⟨hnoop, trivial⟩, trivial, trivial⟩
  exact ⟨ha, hb, fun h => by simpa [a, b, bare, bareAll] using (polish_eq_iff ha hb).1 h⟩

end Tree

end BlockCalc
