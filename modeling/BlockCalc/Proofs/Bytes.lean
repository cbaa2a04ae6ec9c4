import BlockCalc.Text.Glyph
import BlockCalc.Proofs.Lists

/-!
# BlockCalc.Proofs.Bytes

Reading bytes as text. An ASCII byte is a character by itself and continues no other, so the bytes
before it and the bytes after it are read on their own. The bytes of characters are read as these
characters (`ofBytes_toBytes_ofString`).

In the other direction no byte is lost (`toBytes_ofBytes`), and the parts of a text that was read
are read from their own bytes (`Readable.append`).

The bytes of characters keep their order, so strings that are in order are so by their bytes
(`byteLess_of_lt`).
-/

namespace BlockCalc
namespace Text

theorem continued_append {b : UInt8} (hb : continuation b = none) (ys : List UInt8) :
    ∀ (k acc : Nat) (xs : List UInt8), continued k acc (xs ++ b :: ys) = continued k acc xs
  | 0, _, _ => rfl
  | k + 1, acc, [] => by simp [continued, hb]
  | k + 1, acc, x :: xs => by
    simp only [List.cons_append, continued]
    cases continuation x with
    | none => rfl
    | some bits => exact continued_append hb ys k _ xs

theorem le_length_of_continued {n : Nat} :
    ∀ {k acc : Nat} {xs : List UInt8}, continued k acc xs = some n → k ≤ xs.length
  | 0, _, _, _ => Nat.zero_le _
  | k + 1, acc, [], h => by simp [continued] at h
  | k + 1, acc, x :: xs, h => by
    simp only [continued] at h
    split at h
    · exact Nat.succ_le_succ (le_length_of_continued h)
    · cases h

theorem firstChar_append {b : UInt8} (hb : continuation b = none) (x : UInt8)
    (xs ys : List UInt8) : firstChar x (xs ++ b :: ys) = firstChar x xs := by
  simp only [firstChar, continued_append hb]

theorem le_length_of_firstChar {x : UInt8} {xs : List UInt8} {c : Char} {k : Nat}
    (h : firstChar x xs = some (c, k)) : k ≤ xs.length := by
  unfold firstChar at h
  split at h
  · cases h
  · split at h
    · cases h
    · rename_i hn
      split at h
      · cases h; exact le_length_of_continued hn
      · cases h

theorem ofBytes_append {b : UInt8} (hb : continuation b = none) (xs ys : List UInt8) :
    ofBytes (xs ++ b :: ys) = ofBytes xs ++ ofBytes (b :: ys) := by
  fun_induction ofBytes xs with
  | case1 => rfl
  | case2 x xs c k h ih =>
    have hdrop : (xs ++ b :: ys).drop k = xs.drop k ++ b :: ys :=
      List.drop_append_of_le_length (le_length_of_firstChar h)
    rw [List.cons_append, ofBytes, firstChar_append hb, h]
    simp only [hdrop, ih, List.cons_append]
  | case3 x xs h ih =>
    rw [List.cons_append, ofBytes, firstChar_append hb, h]
    simp only [ih, List.cons_append]

theorem firstChar_ascii {b : UInt8} (hb : b < 0x80) (ys : List UInt8) :
    firstChar b ys = some (Char.ofNat b.toNat, 0) := by
  have hvalid : b.toNat.isValidChar := .inl (Nat.lt_trans (UInt8.lt_iff_toNat_lt.1 hb) (by decide))
  simp [firstChar, lead, hb, continued, hvalid]

theorem ofBytes_ascii {b : UInt8} (hb : b < 0x80) (ys : List UInt8) :
    ofBytes (b :: ys) = .char (Char.ofNat b.toNat) :: ofBytes ys := by
  rw [ofBytes, firstChar_ascii hb]
  rfl

/-! ## The bytes of a character -/

theorem continuation_ofNat : ∀ n < 64, continuation (.ofNat (n + 128)) = some n := by decide

theorem lead_ofNat_two : ∀ n < 32, lead (.ofNat (n + 192)) = some (1, n, 0x80) := by decide

theorem lead_ofNat_three : ∀ n < 16, lead (.ofNat (n + 224)) = some (2, n, 0x800) := by decide

theorem lead_ofNat_four : ∀ n < 8, lead (.ofNat (n + 240)) = some (3, n, 0x10000) := by decide

theorem firstChar_of_continued {b : UInt8} {bs : List UInt8} {k payload least : Nat} {c : Char}
    (hlead : lead b = some (k, payload, least)) (hbits : continued k payload bs = some c.toNat)
    (hleast : least ≤ c.toNat) : firstChar b bs = some (c, k) := by
  simp only [firstChar, hlead, hbits]
  rw [if_pos ⟨hleast, c.valid⟩, Char.ofNat_toNat]

theorem toNat_lt (c : Char) : c.toNat < 0x110000 := by
  rcases c.valid with h | h
  · exact Nat.lt_trans h (by decide)
  · exact h.2

/-- A character is read from its bytes. The cases are the lengths of the sequence. -/
theorem ofBytes_utf8EncodeChar (c : Char) (rest : List UInt8) :
    ofBytes (String.utf8EncodeChar c ++ rest) = .char c :: ofBytes rest := by
  have hc := toNat_lt c
  have hv : c.val.toNat = c.toNat := rfl
  unfold String.utf8EncodeChar
  simp only [hv]
  split
  · rename_i hle
    have hsmall : (UInt8.ofNat c.toNat).toNat = c.toNat :=
      UInt8.toNat_ofNat_of_lt' (Nat.lt_of_le_of_lt hle (by decide))
    have hb : UInt8.ofNat c.toNat < 0x80 := by
      rw [UInt8.lt_iff_toNat_lt, hsmall]
      exact Nat.lt_succ_of_le hle
    rw [List.singleton_append, ofBytes_ascii hb, hsmall, Char.ofNat_toNat]
  · split
    · have hlead := lead_ofNat_two (c.toNat / 64 % 32) (by omega)
      have h0 := continuation_ofNat (c.toNat % 64) (by omega)
      rw [List.cons_append, ofBytes, firstChar_of_continued hlead (c := c)]
      · rfl
      · simp only [List.cons_append, continued, h0, Option.some.injEq]
        omega
      · omega
    · split
      · have hlead := lead_ofNat_three (c.toNat / 4096 % 16) (by omega)
        have h1 := continuation_ofNat (c.toNat / 64 % 64) (by omega)
        have h0 := continuation_ofNat (c.toNat % 64) (by omega)
        rw [List.cons_append, ofBytes, firstChar_of_continued hlead (c := c)]
        · rfl
        · simp only [List.cons_append, continued, h1, h0, Option.some.injEq]
          omega
        · omega
      · have hlead := lead_ofNat_four (c.toNat / 262144 % 8) (by omega)
        have h2 := continuation_ofNat (c.toNat / 4096 % 64) (by omega)
        have h1 := continuation_ofNat (c.toNat / 64 % 64) (by omega)
        have h0 := continuation_ofNat (c.toNat % 64) (by omega)
        rw [List.cons_append, ofBytes, firstChar_of_continued hlead (c := c)]
        · rfl
        · simp only [List.cons_append, continued, h2, h1, h0, Option.some.injEq]
          omega
        · omega

theorem ofBytes_ofString_append (s : String) (rest : List UInt8) :
    ofBytes (toBytes (ofString s) ++ rest) = ofString s ++ ofBytes rest := by
  unfold ofString toBytes
  induction s.toList with
  | nil => rfl
  | cons c cs ih =>
    rw [List.map_cons, List.flatMap_cons, Glyph.bytes, List.append_assoc, ofBytes_utf8EncodeChar,
      ih, List.cons_append]

theorem ofBytes_toBytes_ofString (s : String) : ofBytes (toBytes (ofString s)) = ofString s := by
  have h := ofBytes_ofString_append s []
  rwa [List.append_nil, ofBytes, List.append_nil] at h

/-! ## The bytes of a text -/

theorem continuation_eq_some {b : UInt8} {n : Nat} (h : continuation b = some n) :
    n < 64 ∧ b = .ofNat (n + 128) := by
  unfold continuation at h
  split at h
  · rename_i hb
    have hlo := UInt8.le_iff_toNat_le.1 hb.1
    have hhi := UInt8.le_iff_toNat_le.1 hb.2
    simp only [UInt8.reduceToNat, Option.some.injEq] at hlo hhi h
    refine ⟨by omega, ?_⟩
    rw [← h, Nat.sub_add_cancel hlo, UInt8.ofNat_toNat]
  · cases h

theorem lead_eq_some {b : UInt8} {k payload least : Nat} (h : lead b = some (k, payload, least)) :
    (k = 0 ∧ payload < 128 ∧ least = 0 ∧ b = .ofNat payload) ∨
    (k = 1 ∧ payload < 32 ∧ least = 0x80 ∧ b = .ofNat (payload + 192)) ∨
    (k = 2 ∧ payload < 16 ∧ least = 0x800 ∧ b = .ofNat (payload + 224)) ∨
    (k = 3 ∧ payload < 8 ∧ least = 0x10000 ∧ b = .ofNat (payload + 240)) := by
  have hb : UInt8.ofNat b.toNat = b := UInt8.ofNat_toNat
  simp only [lead, UInt8.lt_iff_toNat_lt, UInt8.le_iff_toNat_le, UInt8.reduceToNat] at h
  split at h
  · simp only [Option.some.injEq, Prod.mk.injEq] at h
    obtain ⟨rfl, rfl, rfl⟩ := h
    exact .inl ⟨rfl, by assumption, rfl, hb.symm⟩
  · split at h
    · simp only [Option.some.injEq, Prod.mk.injEq] at h
      obtain ⟨rfl, rfl, rfl⟩ := h
      refine .inr (.inl ⟨rfl, by omega, rfl, ?_⟩)
      rw [Nat.sub_add_cancel (by omega), hb]
    · split at h
      · simp only [Option.some.injEq, Prod.mk.injEq] at h
        obtain ⟨rfl, rfl, rfl⟩ := h
        refine .inr (.inr (.inl ⟨rfl, by omega, rfl, ?_⟩))
        rw [Nat.sub_add_cancel (by omega), hb]
      · split at h
        · simp only [Option.some.injEq, Prod.mk.injEq] at h
          obtain ⟨rfl, rfl, rfl⟩ := h
          refine .inr (.inr (.inr ⟨rfl, by omega, rfl, ?_⟩))
          rw [Nat.sub_add_cancel (by omega), hb]
        · cases h

/-- A step of reading continuation bytes. -/
theorem continued_succ {k acc n : Nat} {bs : List UInt8} (h : continued (k + 1) acc bs = some n) :
    ∃ m rest, m < 64 ∧ bs = .ofNat (m + 128) :: rest ∧
      continued k (acc * 64 + m) rest = some n := by
  cases bs with
  | nil => cases h
  | cons b rest =>
    rw [continued] at h
    split at h
    · rename_i m hm
      obtain ⟨hlt, rfl⟩ := continuation_eq_some hm
      exact ⟨m, rest, hlt, rfl, h⟩
    · cases h

theorem toNat_ofNat_of_isValidChar {n : Nat} (h : n.isValidChar) : (Char.ofNat n).toNat = n := by
  unfold Char.ofNat
  rw [dif_pos h]
  rfl

theorem firstChar_eq_some {b : UInt8} {bs : List UInt8} {c : Char} {k : Nat}
    (h : firstChar b bs = some (c, k)) :
    ∃ payload least, lead b = some (k, payload, least) ∧ continued k payload bs = some c.toNat ∧
      least ≤ c.toNat := by
  unfold firstChar at h
  split at h
  · cases h
  · rename_i k' payload least hlead
    split at h
    · cases h
    · rename_i n hn
      split at h
      · rename_i hvalid
        simp only [Option.some.injEq, Prod.mk.injEq] at h
        obtain ⟨rfl, rfl⟩ := h
        rw [toNat_ofNat_of_isValidChar hvalid.2]
        exact ⟨payload, least, hlead, hn, hvalid.1⟩
      · cases h

/-- A character is encoded by the bytes that it is read from. The cases are the lengths of the
sequence. -/
theorem utf8EncodeChar_of_firstChar {b : UInt8} {bs : List UInt8} {c : Char} {k : Nat}
    (h : firstChar b bs = some (c, k)) : String.utf8EncodeChar c = b :: bs.take k := by
  obtain ⟨payload, least, hlead, hc, hleast⟩ := firstChar_eq_some h
  have hval : c.val.toNat = c.toNat := rfl
  unfold String.utf8EncodeChar
  simp only [hval]
  generalize c.toNat = n at hc hleast
  rcases lead_eq_some hlead with ⟨rfl, hp, rfl, rfl⟩ | ⟨rfl, hp, rfl, rfl⟩ |
    ⟨rfl, hp, rfl, rfl⟩ | ⟨rfl, hp, rfl, rfl⟩
  · obtain rfl : payload = n := Option.some.inj hc
    rw [if_pos (by omega)]
    rfl
  · obtain ⟨m, rest, hm, rfl, hm'⟩ := continued_succ hc
    obtain rfl : payload * 64 + m = n := Option.some.inj hm'
    have h1 : (payload * 64 + m) / 64 % 32 = payload := by omega
    have h0 : (payload * 64 + m) % 64 = m := by omega
    rw [if_neg (by omega), if_pos (by omega), h1, h0]
    rfl
  · obtain ⟨l, rest, hl, rfl, hl'⟩ := continued_succ hc
    obtain ⟨m, rest, hm, rfl, hm'⟩ := continued_succ hl'
    obtain rfl : (payload * 64 + l) * 64 + m = n := Option.some.inj hm'
    have h2 : ((payload * 64 + l) * 64 + m) / 4096 % 16 = payload := by omega
    have h1 : ((payload * 64 + l) * 64 + m) / 64 % 64 = l := by omega
    have h0 : ((payload * 64 + l) * 64 + m) % 64 = m := by omega
    rw [if_neg (by omega), if_neg (by omega), if_pos (by omega), h2, h1, h0]
    rfl
  · obtain ⟨j, rest, hj, rfl, hj'⟩ := continued_succ hc
    obtain ⟨l, rest, hl, rfl, hl'⟩ := continued_succ hj'
    obtain ⟨m, rest, hm, rfl, hm'⟩ := continued_succ hl'
    obtain rfl : ((payload * 64 + j) * 64 + l) * 64 + m = n := Option.some.inj hm'
    have h3 : (((payload * 64 + j) * 64 + l) * 64 + m) / 262144 % 8 = payload := by omega
    have h2 : (((payload * 64 + j) * 64 + l) * 64 + m) / 4096 % 64 = j := by omega
    have h1 : (((payload * 64 + j) * 64 + l) * 64 + m) / 64 % 64 = l := by omega
    have h0 : (((payload * 64 + j) * 64 + l) * 64 + m) % 64 = m := by omega
    rw [if_neg (by omega), if_neg (by omega), if_neg (by omega), h3, h2, h1, h0]
    rfl

/-- No byte is lost in reading. -/
theorem toBytes_ofBytes (bs : List UInt8) : toBytes (ofBytes bs) = bs := by
  unfold toBytes
  fun_induction ofBytes bs with
  | case1 => rfl
  | case2 b bs c k h ih =>
    rw [List.flatMap_cons, ih, Glyph.bytes, utf8EncodeChar_of_firstChar h, List.cons_append,
      List.take_append_drop]
  | case3 b bs h ih => rw [List.flatMap_cons, ih]; rfl

theorem toBytes_append (t u : Text) : toBytes (t ++ u) = toBytes t ++ toBytes u :=
  List.flatMap_append

/-! ## Texts that are read from bytes -/

/-- The text is what its bytes are read as. -/
def Readable (t : Text) : Prop := ofBytes (toBytes t) = t

theorem readable_ofBytes (bs : List UInt8) : Readable (ofBytes bs) := by
  rw [Readable, toBytes_ofBytes]

theorem readable_ofString (s : String) : Readable (ofString s) := ofBytes_toBytes_ofString s

theorem continued_append_of_some {n : Nat} (ys : List UInt8) :
    ∀ {k acc : Nat} {xs : List UInt8}, continued k acc xs = some n →
      continued k acc (xs ++ ys) = some n
  | 0, _, _, h => h
  | k + 1, acc, [], h => by cases h
  | k + 1, acc, x :: xs, h => by
    rw [continued] at h
    rw [List.cons_append, continued]
    cases hx : continuation x with
    | none => simp [hx] at h
    | some m =>
      rw [hx] at h
      exact continued_append_of_some ys h

/-- Bytes that begin with no character do not begin with one when they are cut short. -/
theorem firstChar_of_append {b : UInt8} {xs ys : List UInt8} (h : firstChar b (xs ++ ys) = none) :
    firstChar b xs = none := by
  cases hx : firstChar b xs with
  | none => rfl
  | some r =>
    obtain ⟨c, k⟩ := r
    obtain ⟨payload, least, hlead, hc, hleast⟩ := firstChar_eq_some hx
    rw [firstChar_of_continued hlead (continued_append_of_some ys hc) hleast] at h
    cases h

theorem readable_char_cons {c : Char} {t : Text} : Readable (.char c :: t) ↔ Readable t := by
  unfold Readable
  have hbytes : toBytes (.char c :: t) = String.utf8EncodeChar c ++ toBytes t := rfl
  rw [hbytes, ofBytes_utf8EncodeChar, List.cons.injEq, and_iff_right rfl]

theorem readable_stray_cons {b : UInt8} {t : Text} :
    Readable (.stray b :: t) ↔ firstChar b (toBytes t) = none ∧ Readable t := by
  unfold Readable
  have hbytes : toBytes (.stray b :: t) = b :: toBytes t := rfl
  rw [hbytes, ofBytes]
  cases h : firstChar b (toBytes t) with
  | none => simp
  | some r => simp

theorem Readable.append {t u : Text} (h : Readable (t ++ u)) : Readable t ∧ Readable u := by
  induction t with
  | nil => exact ⟨by rw [Readable, toBytes, List.flatMap_nil, ofBytes], h⟩
  | cons g t ih =>
    rw [List.cons_append] at h
    cases g with
    | char c =>
      rw [readable_char_cons] at h ⊢
      exact ih h
    | stray b =>
      rw [readable_stray_cons, toBytes_append] at h
      obtain ⟨ht, hu⟩ := ih h.2
      exact ⟨readable_stray_cons.2 ⟨firstChar_of_append h.1, ht⟩, hu⟩

theorem ten_mem_of_newline_mem {bs : List UInt8} (h : newline ∈ ofBytes bs) : 10 ∈ bs := by
  have hmem : (10 : UInt8) ∈ toBytes (ofBytes bs) := List.mem_flatMap.2 ⟨newline, h, by decide⟩
  rwa [toBytes_ofBytes] at hmem

end Text

theorem ofBytes_newline (src rest : List UInt8) :
    Text.ofBytes (src ++ 10 :: rest) = Text.ofBytes src ++ Text.newline :: Text.ofBytes rest := by
  rw [Text.ofBytes_append (by decide), Text.ofBytes_ascii (by decide)]
  rfl

/-! ## The order of bytes -/

/-- The bytes of the first string come before those of the second. -/
def ByteLess (a b : String) : Prop :=
  Text.toBytes (Text.ofString a) < Text.toBytes (Text.ofString b)

/-- The bytes of the smaller character are smaller, whatever follows. The cases are the lengths of
both sequences: at different lengths the first bytes differ, and at the same length the bytes are
digits to the base 64. -/
theorem utf8EncodeChar_append_lt {c d : Char} (h : c < d) (xs ys : List UInt8) :
    String.utf8EncodeChar c ++ xs < String.utf8EncodeChar d ++ ys := by
  have hcd : c.val.toNat < d.val.toNat := UInt32.lt_iff_toNat_lt.1 (Char.lt_def.1 h)
  have hd : d.val.toNat < 0x110000 := Text.toNat_lt d
  have hdigits : ∀ n : Nat, n / 4096 = n / 64 / 64 ∧ n / 262144 = n / 64 / 64 / 64 := by omega
  unfold String.utf8EncodeChar
  simp only [hdigits]
  generalize c.val.toNat = m at hcd
  generalize d.val.toNat = n at hcd hd
  repeat' split
  all_goals
    simp only [List.cons_append, List.nil_append, List.cons_lt_cons_iff, UInt8.lt_iff_toNat_lt,
      ← UInt8.toNat_inj, UInt8.toNat_ofNat']
    omega

theorem byteLess_of_lt {a b : String} (h : a < b) : ByteLess a b := by
  have hbytes : ∀ s : String,
      Text.toBytes (Text.ofString s) = s.toList.flatMap String.utf8EncodeChar :=
    fun s => List.flatMap_map _ _ _
  have hlist : a.toList < b.toList := h
  rw [ByteLess, hbytes, hbytes]
  generalize a.toList = cs at hlist
  generalize b.toList = ds at hlist
  induction hlist with
  | @nil d ds =>
    obtain ⟨byte, bytes, hd⟩ : ∃ byte bytes, String.utf8EncodeChar d = byte :: bytes :=
      List.exists_cons_of_ne_nil String.utf8EncodeChar_ne_nil
    rw [List.flatMap_cons, hd]
    exact List.nil_lt_cons _ _
  | rel h => exact utf8EncodeChar_append_lt h _ _
  | cons _ ih => exact List.append_left_lt ih

end BlockCalc
