import BlockCalc.Proofs.Tiling

/-!
# BlockCalc.Proofs.Requests

A scanner that is asked for one token after another. It goes through the listing of the text and
then answers for ever as it did at the end (`Cursor.requests_stream`).

A scanner that has stopped is at rest: asked again, it gives the same answer and stays as it is
(`Scanner.AtRest`). At the end of a text that is so because no blank is left to skip. After a fault
it is so because the fault is kept, and not because of what is left to read: behind a number that
is too large there may be more tokens.
-/

namespace BlockCalc

/-- The listing of a text, and after it, for ever, the end of the text or the fault that ended the
listing. -/
def Scan.stream (s : Scan) (i : Nat) : Except LexError Listed :=
  match s.listing[i]?, s.stop with
  | some x, _ => .ok x
  | none, .eof p => .ok ⟨.eof, "", 0, p⟩
  | none, .fault e => .error e

theorem Scan.stream_nil (stop : Stop) (i : Nat) :
    Scan.stream ⟨[], stop⟩ i = Scan.stream ⟨[], stop⟩ 0 := by
  cases stop with
  | eof p => cases i <;> rfl
  | fault e => rfl

theorem Scan.map_stream_nil (stop : Stop) (n : Nat) :
    (List.range n).map (Scan.stream ⟨[], stop⟩) =
      List.replicate n (Scan.stream ⟨[], stop⟩ 0) := by
  refine List.eq_replicate_iff.2 ⟨by rw [List.length_map, List.length_range], ?_⟩
  intro x hx
  obtain ⟨i, _, rfl⟩ := List.mem_map.1 hx
  exact stream_nil stop i

namespace Scanner

/-- An answer as it is listed: the end of a text is a token, and only a fault is none. -/
def listed : Except Stop Token → Except LexError Listed
  | .ok t => .ok t.listed
  | .error (.eof p) => .ok ⟨.eof, "", 0, p⟩
  | .error (.fault e) => .error e

theorem listed_stop (stop : Stop) : listed (.error stop) = Scan.stream ⟨[], stop⟩ 0 := by
  cases stop <;> rfl

variable {s : Scanner} {stop : Stop}

/-! ## One request -/

/-- The next request is answered with `stop`, and leaves the scanner as it is. -/
def AtRest (s : Scanner) (stop : Stop) : Prop := s.next = (.error stop, s)

theorem next_token {c after : Cursor} {t : Token} (h : c.step = .token t after) :
    c.scanner.next = (.ok t, after.scanner) := by
  simp only [next, Cursor.scanner, h]

theorem next_eof {c : Cursor} {p : Position} (h : c.step = .stop (.eof p)) :
    c.scanner.next = (.error (.eof p), c.skipBlanks.scanner) := by
  simp only [next, Cursor.scanner, h]

theorem next_fault {c : Cursor} {e : LexError} (h : c.step = .stop (.fault e)) :
    c.scanner.next = (.error (.fault e), ⟨c.skipBlanks.pastFault e.cause, some e⟩) := by
  simp only [next, Cursor.scanner, h]

theorem atRest_of_fault (c : Cursor) (e : LexError) : AtRest ⟨c, some e⟩ (.fault e) := rfl

/-- Nothing is left to skip where blanks were skipped. -/
theorem skipBlanks_skipBlanks (c : Cursor) : c.skipBlanks.skipBlanks = c.skipBlanks := by
  obtain ⟨_, _, _, hstop, _⟩ := Cursor.skipBlanks_iff.1 (rfl : c.skipBlanks = c.skipBlanks)
  exact Cursor.skipBlanks_iff.2 ⟨[], (by intro g hg; cases hg), rfl, hstop, rfl⟩

theorem atRest_of_eof {c : Cursor} {p : Position} (h : c.step = .stop (.eof p)) :
    AtRest c.skipBlanks.scanner (.eof p) := by
  have hagain : c.skipBlanks.step = .stop (.eof p) := by
    rw [Cursor.step, skipBlanks_skipBlanks]
    exact h
  rw [AtRest, next_eof hagain, skipBlanks_skipBlanks]

/-- A scanner that answers with a stop is at rest from then on. -/
theorem atRest_next (h : s.next.1 = .error stop) : AtRest s.next.2 stop := by
  obtain ⟨c, fault⟩ := s
  cases fault with
  | some e =>
    cases h
    exact atRest_of_fault c e
  | none =>
    cases hstep : c.step with
    | token t after =>
      have hnext : next ⟨c, none⟩ = _ := next_token hstep
      rw [hnext] at h
      cases h
    | stop stop' =>
      cases stop' with
      | eof p =>
        have hnext : next ⟨c, none⟩ = _ := next_eof hstep
        rw [hnext] at h ⊢
        cases h
        exact atRest_of_eof hstep
      | fault e =>
        have hnext : next ⟨c, none⟩ = _ := next_fault hstep
        rw [hnext] at h ⊢
        cases h
        exact atRest_of_fault _ e

/-! ## Many requests -/

theorem run_succ (n : Nat) (s : Scanner) :
    s.run (n + 1) = (s.next.1 :: (s.next.2.run n).1, (s.next.2.run n).2) := rfl

theorem run_add (m n : Nat) (s : Scanner) :
    s.run (m + n) = ((s.run m).1 ++ ((s.run m).2.run n).1, ((s.run m).2.run n).2) := by
  induction m generalizing s with
  | zero => rw [Nat.zero_add]; rfl
  | succ m ih => rw [Nat.add_right_comm, run_succ, ih, run_succ]; rfl

theorem AtRest.run (h : AtRest s stop) (n : Nat) : s.run n = (List.replicate n (.error stop), s) := by
  induction n with
  | zero => rfl
  | succ n ih => rw [run_succ, h, ih]; rfl

theorem atRest_run {n : Nat} : ∀ {s : Scanner}, .error stop ∈ (s.run n).1 →
    AtRest (s.run n).2 stop := by
  induction n with
  | zero => intro s h; cases h
  | succ n ih =>
    intro s h
    rw [run_succ] at h ⊢
    rcases List.mem_cons.1 h with h | h
    -- the first answer is the stop, and nothing changes from there on
    · have hrest := atRest_next h.symm
      rw [hrest.run]
      exact hrest
    · exact ih h

/-- The state is the same after any number of further requests. -/
theorem run_of_stopped {m n : Nat} (h : .error stop ∈ (s.run m).1) (hmn : m ≤ n) :
    (s.run n).2 = (s.run m).2 := by
  obtain ⟨k, rfl⟩ := Nat.exists_eq_add_of_le hmn
  rw [run_add, (atRest_run h).run]

end Scanner

namespace Cursor

/-- The answers from a cursor on, by induction along the scan: a token is the first of the stream,
and where the scan stops the scanner is at rest. -/
theorem listed_run (c : Cursor) : ∀ n : Nat,
    (c.scanner.run n).1.map Scanner.listed = (List.range n).map c.scan.stream := by
  induction c using scan_induction with
  | token h ih =>
    intro n
    cases n with
    | zero => rfl
    | succ n =>
      rw [Scanner.run_succ, Scanner.next_token h, scan_token h, List.range_succ_eq_map,
        List.map_cons, List.map_cons, ih, List.map_map]
      rfl
  | @stop c stop h =>
    intro n
    have hnext : c.scanner.next.1 = .error stop := by
      cases stop with
      | eof p => rw [Scanner.next_eof h]
      | fault e => rw [Scanner.next_fault h]
    cases n with
    | zero => rfl
    | succ n =>
      rw [Scanner.run_succ, (Scanner.atRest_next hnext).run, hnext, scan_stop h,
        ← List.replicate_succ, List.map_replicate, Scanner.listed_stop, Scan.map_stream_nil]

/-- The answers to `n` requests are the first `n` of the stream, and a scanner that has come to the
end of the text or to a fault no longer changes. -/
theorem requests_stream (t : Text) (n : Nat) :
    ((Cursor.ofText t).requests n).map Scanner.listed =
        (List.range n).map (Scan.ofText t).stream ∧
      ∀ m stop, .error stop ∈ (Cursor.ofText t).requests m → m ≤ n →
        ((Cursor.ofText t).scanner.run n).2 = ((Cursor.ofText t).scanner.run m).2 :=
  ⟨listed_run (Cursor.ofText t) n, fun _ _ hstop hmn => Scanner.run_of_stopped hstop hmn⟩

/-- The word behind a number that is too large is never given out. -/
theorem requests_stream_too_large :
    let c := Cursor.ofText (Text.ofString "9223372036854775808 x")
    .error (.fault ⟨⟨1, 1⟩, .tooLarge "9223372036854775808"⟩) ∈ c.requests 1 ∧
      (c.scanner.run 3).2 = (c.scanner.run 1).2 ∧
      (c.scanner.run 3).2.cursor.rest = Text.ofString " x" := by
  intro c
  have hfault : .error (.fault ⟨⟨1, 1⟩, .tooLarge "9223372036854775808"⟩) ∈ c.requests 1 :=
    .head _
  exact ⟨hfault, (requests_stream _ 3).2 1 _ hfault (by decide), by decide +kernel⟩

end Cursor

end BlockCalc
