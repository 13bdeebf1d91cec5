import DataRepository.Text.Utf8

/-! # Reading what UTF-8 writes

The bytes of a character, with any bytes after them, are read as that character and
leave the bytes after them. So the bytes of a text are read as that text
(`decode?_utf8`). -/
namespace DataRepository.Text

theorem utf8_append (cs ds : List Char) : utf8 (cs ++ ds) = utf8 cs ++ utf8 ds :=
  List.flatMap_append

theorem utf8_cons (c : Char) (cs : List Char) : utf8 (c :: cs) = String.utf8EncodeChar c ++ utf8 cs :=
  List.flatMap_cons

theorem toNat_byte {n : Nat} (h : n < 256) : (UInt8.ofNat n).toNat = n :=
  UInt8.toNat_ofNat_of_lt' h

theorem continuation?_byte (n : Nat) : continuation? (UInt8.ofNat (n % 64 + 128)) = some (n % 64) := by
  have hnat : (UInt8.ofNat (n % 64 + 128)).toNat = n % 64 + 128 := toNat_byte (by omega)
  have hrange : 0x80 ≤ UInt8.ofNat (n % 64 + 128) ∧ UInt8.ofNat (n % 64 + 128) ≤ 0xbf := by
    simp only [UInt8.le_iff_toNat_le, hnat, UInt8.reduceToNat]
    omega
  rw [continuation?, if_pos hrange, hnat, Nat.add_sub_cancel]

theorem scalar?_toNat {least : Nat} {c : Char} (h : least ≤ c.toNat) :
    scalar? least c.toNat = some c := by
  rw [scalar?, if_pos ⟨h, c.valid⟩, Char.ofNat_toNat]

theorem utf8EncodeChar_ascii {c : Char} (h : c.toNat < 128) :
    String.utf8EncodeChar c = [UInt8.ofNat c.toNat] := by
  have hval : c.val.toNat ≤ 127 := Nat.le_of_lt_succ h
  rw [String.utf8EncodeChar, if_pos hval]
  rfl

/-- A text of ASCII is written with a byte for each character. -/
theorem utf8_ascii {cs : List Char} (h : ∀ c ∈ cs, c.toNat < 128) :
    utf8 cs = cs.map fun c => UInt8.ofNat c.toNat := by
  induction cs with
  | nil => rfl
  | cons c cs ih =>
    obtain ⟨hc, hcs⟩ := List.forall_mem_cons.mp h
    rw [utf8_cons, utf8EncodeChar_ascii hc, ih hcs]
    rfl

/-- The first byte of a character beyond ASCII is none of ASCII. -/
theorem exists_lead {c : Char} (h : 128 ≤ c.toNat) :
    ∃ b bs, String.utf8EncodeChar c = b :: bs ∧ 0x80 ≤ b := by
  have hval : ¬ c.val.toNat ≤ 127 := Nat.not_le.mpr h
  have hlead : ∀ k n : Nat, 128 ≤ k → k + n < 256 → 0x80 ≤ UInt8.ofNat (n + k) := by
    intro k n hk hn
    rw [UInt8.le_iff_toNat_le, toNat_byte (by omega)]
    exact Nat.le_trans hk (Nat.le_add_left k n)
  unfold String.utf8EncodeChar
  rw [if_neg hval]
  split
  · exact ⟨_, _, rfl, hlead _ _ (by omega) (by omega)⟩
  · split
    · exact ⟨_, _, rfl, hlead _ _ (by omega) (by omega)⟩
    · exact ⟨_, _, rfl, hlead _ _ (by omega) (by omega)⟩

/-- **A character is read off its bytes.** -/
theorem decodeChar?_append (c : Char) (rest : Bytes) :
    decodeChar? (String.utf8EncodeChar c ++ rest) = some (c, rest) := by
  have hmax : c.toNat < 0x110000 := c.valid.elim (fun h => by have : c.toNat < 55296 := h; omega) (·.2)
  have hval : c.val.toNat = c.toNat := rfl
  -- One case for each length of the form: the code is put together again from its digits of base 64.
  unfold String.utf8EncodeChar
  simp only [hval]
  split
  · rename_i h
    have hnat := toNat_byte (n := c.toNat) (by omega)
    have hlead : UInt8.ofNat c.toNat < 0x80 := by
      simp only [UInt8.lt_iff_toNat_lt, hnat, UInt8.reduceToNat]
      omega
    simp only [List.cons_append, List.nil_append, decodeChar?, if_pos hlead, hnat, Char.ofNat_toNat]
  · split
    · rename_i hlow h
      have hnat := toNat_byte (n := c.toNat / 64 % 32 + 192) (by omega)
      have hcode : (c.toNat / 64 % 32 + 192 - 0xc0) * 64 + c.toNat % 64 = c.toNat := by omega
      have hlead : ¬ UInt8.ofNat (c.toNat / 64 % 32 + 192) < 0x80 ∧
          0xc0 ≤ UInt8.ofNat (c.toNat / 64 % 32 + 192) ∧
            UInt8.ofNat (c.toNat / 64 % 32 + 192) < 0xe0 := by
        simp only [UInt8.lt_iff_toNat_lt, UInt8.le_iff_toNat_le, hnat, UInt8.reduceToNat]
        omega
      simp only [List.cons_append, List.nil_append, decodeChar?, if_neg hlead.1, if_pos hlead.2,
        continuation?_byte, hnat, Option.bind_eq_bind, Option.bind_some, hcode,
        scalar?_toNat (show 0x80 ≤ c.toNat by omega), Option.pure_def]
    · split
      · rename_i hlow h
        have hnat := toNat_byte (n := c.toNat / 4096 % 16 + 224) (by omega)
        have hcode : ((c.toNat / 4096 % 16 + 224 - 0xe0) * 64 + c.toNat / 64 % 64) * 64 +
            c.toNat % 64 = c.toNat := by omega
        have hlead : ¬ UInt8.ofNat (c.toNat / 4096 % 16 + 224) < 0x80 ∧
            ¬ (0xc0 ≤ UInt8.ofNat (c.toNat / 4096 % 16 + 224) ∧
              UInt8.ofNat (c.toNat / 4096 % 16 + 224) < 0xe0) ∧
            0xe0 ≤ UInt8.ofNat (c.toNat / 4096 % 16 + 224) ∧
              UInt8.ofNat (c.toNat / 4096 % 16 + 224) < 0xf0 := by
          simp only [UInt8.lt_iff_toNat_lt, UInt8.le_iff_toNat_le, hnat, UInt8.reduceToNat]
          omega
        simp only [List.cons_append, List.nil_append, decodeChar?, if_neg hlead.1, if_neg hlead.2.1,
          if_pos hlead.2.2, continuation?_byte, hnat, Option.bind_eq_bind, Option.bind_some, hcode,
          scalar?_toNat (show 0x800 ≤ c.toNat by omega), Option.pure_def]
      · rename_i hlow
        have hnat := toNat_byte (n := c.toNat / 262144 % 8 + 240) (by omega)
        have hcode : (((c.toNat / 262144 % 8 + 240 - 0xf0) * 64 + c.toNat / 4096 % 64) * 64 +
            c.toNat / 64 % 64) * 64 + c.toNat % 64 = c.toNat := by omega
        have hlead : ¬ UInt8.ofNat (c.toNat / 262144 % 8 + 240) < 0x80 ∧
            ¬ (0xc0 ≤ UInt8.ofNat (c.toNat / 262144 % 8 + 240) ∧
              UInt8.ofNat (c.toNat / 262144 % 8 + 240) < 0xe0) ∧
            ¬ (0xe0 ≤ UInt8.ofNat (c.toNat / 262144 % 8 + 240) ∧
              UInt8.ofNat (c.toNat / 262144 % 8 + 240) < 0xf0) ∧
            0xf0 ≤ UInt8.ofNat (c.toNat / 262144 % 8 + 240) ∧
              UInt8.ofNat (c.toNat / 262144 % 8 + 240) < 0xf8 := by
          simp only [UInt8.lt_iff_toNat_lt, UInt8.le_iff_toNat_le, hnat, UInt8.reduceToNat]
          omega
        simp only [List.cons_append, List.nil_append, decodeChar?, if_neg hlead.1, if_neg hlead.2.1,
          if_neg hlead.2.2.1, if_pos hlead.2.2.2, continuation?_byte, hnat, Option.bind_eq_bind,
          Option.bind_some, hcode, scalar?_toNat (show 0x10000 ≤ c.toNat by omega), Option.pure_def]

theorem decodeFrom?_utf8 (cs done : List Char) {n : Nat} (h : cs.length ≤ n) :
    decodeFrom? n done (utf8 cs) = some (done.reverse ++ cs) := by
  induction cs generalizing done n with
  | nil => simp [utf8, decodeFrom?]
  | cons c cs ih =>
    obtain ⟨m, rfl⟩ : ∃ m, n = m + 1 := Nat.exists_eq_add_one.mpr (Nat.lt_of_lt_of_le (Nat.succ_pos _) h)
    obtain ⟨b, bs, hbytes⟩ := List.exists_cons_of_ne_nil (String.utf8EncodeChar_ne_nil (c := c))
    have hread := decodeChar?_append c (utf8 cs)
    rw [hbytes, List.cons_append] at hread
    rw [utf8_cons, hbytes, List.cons_append, decodeFrom?, hread]
    simp [ih (c :: done) (Nat.le_of_succ_le_succ h)]

theorem length_le_utf8 (cs : List Char) : cs.length ≤ (utf8 cs).length := by
  induction cs with
  | nil => exact Nat.le_refl 0
  | cons c cs ih =>
    have hpos : 0 < (String.utf8EncodeChar c).length := by
      rw [String.length_utf8EncodeChar]
      exact c.utf8Size_pos
    rw [utf8_cons, List.length_cons, List.length_append]
    omega

/-- **The bytes of a text are read as the text.** -/
theorem decode?_utf8 (cs : List Char) : decode? (utf8 cs) = some (String.ofList cs) := by
  rw [decode?, decodeFrom?_utf8 cs [] (length_le_utf8 cs)]
  simp

theorem utf8_injective {cs ds : List Char} (h : utf8 cs = utf8 ds) : cs = ds := by
  have hdecode := decode?_utf8 cs
  rw [h, decode?_utf8] at hdecode
  exact (String.ofList_injective (Option.some.inj hdecode)).symm

end DataRepository.Text
