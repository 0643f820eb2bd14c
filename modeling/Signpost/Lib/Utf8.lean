/-
The characters of a text, which is the same text in UTF-16 and in UTF-8.

Bytes are read as characters in any case (`ofUtf8`), since U+FFFD stands for what is none;
they come back when the text is written again (`toUtf8`) exactly if they are the UTF-8 of
some characters. ASCII is kept whatever stands around it: the ASCII characters of the
text are the bytes below 0x80, in order.
-/
import Mathlib.Data.List.Flatten
import Signpost.Lib.Utf16

namespace Lib.Utf16

/-! ## Characters -/

/-- The number of a character, which no half of a pair has. -/
def Scalar (n : Nat) : Prop := n < 0xD800 ∨ (0xE000 ≤ n ∧ n < 0x110000)

/-- These bytes are the UTF-8 of some characters. -/
def IsUtf8 (bytes : List UInt8) : Prop := ∃ ns : List Nat, (∀ n ∈ ns, Scalar n) ∧ ns.flatMap utf8Char = bytes

section
variable {n : Nat} {u v : UInt16}

theorem toNat_ofNat8 (h : n < 256) : (UInt8.ofNat n).toNat = n := UInt8.toNat_ofNat_of_lt' h

theorem toNat_ofNat16 (h : n < 65536) : (UInt16.ofNat n).toNat = n := UInt16.toNat_ofNat_of_lt' h

theorem toUtf8_cons_of_not_high (hu : ¬ High u) (s : List UInt16) :
    toUtf8 (u :: s) = utf8Char (single u) ++ toUtf8 s := by
  cases s with
  | nil => simp [toUtf8]
  | cons v s => rw [toUtf8, if_neg fun h => hu h.1]

theorem toUtf8_ofChar_append (hn : Scalar n) (s : List UInt16) :
    toUtf8 (ofChar n ++ s) = utf8Char n ++ toUtf8 s := by
  unfold Scalar at hn
  unfold ofChar
  split
  · next hlt =>
    have htoNat : (UInt16.ofNat n).toNat = n := toNat_ofNat16 (by omega)
    have hhalf : ¬ High (UInt16.ofNat n) ∧ ¬ Low (UInt16.ofNat n) := by
      unfold High Low
      rw [htoNat]
      omega
    rw [List.singleton_append, toUtf8_cons_of_not_high hhalf.1, single, if_neg (not_or.mpr hhalf), htoNat]
  · next hge =>
    have hhigh : (UInt16.ofNat (0xD800 + (n - 0x10000) / 1024)).toNat = 0xD800 + (n - 0x10000) / 1024 :=
      toNat_ofNat16 (by omega)
    have hlow : (UInt16.ofNat (0xDC00 + (n - 0x10000) % 1024)).toNat = 0xDC00 + (n - 0x10000) % 1024 :=
      toNat_ofNat16 (by omega)
    generalize UInt16.ofNat (0xD800 + (n - 0x10000) / 1024) = u at hhigh ⊢
    generalize UInt16.ofNat (0xDC00 + (n - 0x10000) % 1024) = v at hlow ⊢
    have hhalves : High u ∧ Low v := by
      unfold High Low
      omega
    have hpair : pair u v = n := by
      unfold pair
      omega
    rw [List.cons_append, List.singleton_append, toUtf8, if_pos hhalves, hpair]

theorem toUtf8_ofChars {ns : List Nat} (h : ∀ n ∈ ns, Scalar n) : toUtf8 (ns.flatMap ofChar) = ns.flatMap utf8Char := by
  induction ns with
  | nil => rfl
  | cons n ns ih =>
    obtain ⟨hn, hns⟩ := List.forall_mem_cons.mp h
    rw [List.flatMap_cons, List.flatMap_cons, toUtf8_ofChar_append hn, ih hns]

end

/-! ## What is written is read -/

section
variable {n more lower upper bits : Nat} {b : UInt8}

theorem feed_more (hlower : lower ≤ b.toNat) (hupper : b.toNat ≤ upper) (hmore : more ≠ 0) :
    feed (some ⟨more + 1, lower, upper, bits⟩) b = ([], some ⟨more, 0x80, 0xBF, bits * 64 + b.toNat % 64⟩) := by
  rw [feed, if_pos ⟨hlower, hupper⟩, if_neg (by simpa using hmore)]
  rfl

theorem feed_last (hlower : lower ≤ b.toNat) (hupper : b.toNat ≤ upper) :
    feed (some ⟨1, lower, upper, bits⟩) b = (ofChar (bits * 64 + b.toNat % 64), none) := by
  rw [feed, if_pos ⟨hlower, hupper⟩, if_pos rfl]

theorem decodeFrom_two (h : 0x80 ≤ n ∧ n < 0x800) (rest : List UInt8) :
    decodeFrom none (UInt8.ofNat (0xC0 + n / 64) :: UInt8.ofNat (0x80 + n % 64) :: rest) =
      ofChar n ++ decodeFrom none rest := by
  have hb := toNat_ofNat8 (by omega : 0xC0 + n / 64 < 256)
  have hc := toNat_ofNat8 (by omega : 0x80 + n % 64 < 256)
  have hstart : feed none (UInt8.ofNat (0xC0 + n / 64)) = ([], some ⟨1, 0x80, 0xBF, n / 64⟩) := by
    rw [feed, startByte, hb, if_neg (by omega), if_pos (by omega), show (0xC0 + n / 64) % 32 = n / 64 by omega]
  rw [decodeFrom, hstart, List.nil_append, decodeFrom, feed_last (by omega) (by omega),
    hc, show n / 64 * 64 + (0x80 + n % 64) % 64 = n by omega]

theorem decodeFrom_three (hn : Scalar n) (h : 0x800 ≤ n ∧ n < 0x10000) (rest : List UInt8) :
    decodeFrom none (UInt8.ofNat (0xE0 + n / 4096) :: UInt8.ofNat (0x80 + n / 64 % 64) ::
      UInt8.ofNat (0x80 + n % 64) :: rest) = ofChar n ++ decodeFrom none rest := by
  unfold Scalar at hn
  have hb := toNat_ofNat8 (by omega : 0xE0 + n / 4096 < 256)
  have hc := toNat_ofNat8 (by omega : 0x80 + n / 64 % 64 < 256)
  have hd := toNat_ofNat8 (by omega : 0x80 + n % 64 < 256)
  obtain ⟨lower, upper, hstart, hlower, hupper⟩ : ∃ lower upper,
      feed none (UInt8.ofNat (0xE0 + n / 4096)) = ([], some ⟨2, lower, upper, n / 4096⟩) ∧
        lower ≤ 0x80 + n / 64 % 64 ∧ 0x80 + n / 64 % 64 ≤ upper := by
    simp only [feed, startByte, hb]
    rw [if_neg (by omega), if_neg (by omega)]
    split_ifs with h0 hD hE
    · exact ⟨0xA0, 0xBF, by rw [show n / 4096 = 0 by omega], by omega, by omega⟩
    · exact ⟨0x80, 0x9F, by rw [show n / 4096 = 13 by omega], by omega, by omega⟩
    · exact ⟨0x80, 0xBF, by rw [show (0xE0 + n / 4096) % 16 = n / 4096 by omega], by omega, by omega⟩
    all_goals omega
  rw [decodeFrom, hstart, List.nil_append, decodeFrom, feed_more (by omega) (by omega) (by decide),
    List.nil_append, decodeFrom, feed_last (by omega) (by omega), hc, hd,
    show (n / 4096 * 64 + (0x80 + n / 64 % 64) % 64) * 64 + (0x80 + n % 64) % 64 = n by omega]

theorem decodeFrom_four (hn : Scalar n) (h : 0x10000 ≤ n) (rest : List UInt8) :
    decodeFrom none (UInt8.ofNat (0xF0 + n / 262144) :: UInt8.ofNat (0x80 + n / 4096 % 64) ::
      UInt8.ofNat (0x80 + n / 64 % 64) :: UInt8.ofNat (0x80 + n % 64) :: rest) = ofChar n ++ decodeFrom none rest := by
  unfold Scalar at hn
  have hb := toNat_ofNat8 (by omega : 0xF0 + n / 262144 < 256)
  have hc := toNat_ofNat8 (by omega : 0x80 + n / 4096 % 64 < 256)
  have hd := toNat_ofNat8 (by omega : 0x80 + n / 64 % 64 < 256)
  have he := toNat_ofNat8 (by omega : 0x80 + n % 64 < 256)
  obtain ⟨lower, upper, hstart, hlower, hupper⟩ : ∃ lower upper,
      feed none (UInt8.ofNat (0xF0 + n / 262144)) = ([], some ⟨3, lower, upper, n / 262144⟩) ∧
        lower ≤ 0x80 + n / 4096 % 64 ∧ 0x80 + n / 4096 % 64 ≤ upper := by
    simp only [feed, startByte, hb]
    rw [if_neg (by omega), if_neg (by omega), if_neg (by omega), if_neg (by omega), if_neg (by omega)]
    split_ifs with h0 h1 h4
    · exact ⟨0x90, 0xBF, by rw [show n / 262144 = 0 by omega], by omega, by omega⟩
    · exact ⟨0x80, 0xBF, by rw [show (0xF0 + n / 262144) % 8 = n / 262144 by omega], by omega, by omega⟩
    · exact ⟨0x80, 0x8F, by rw [show n / 262144 = 4 by omega], by omega, by omega⟩
    all_goals omega
  rw [decodeFrom, hstart, List.nil_append, decodeFrom, feed_more (by omega) (by omega) (by decide),
    List.nil_append, decodeFrom, feed_more (by omega) (by omega) (by decide),
    List.nil_append, decodeFrom, feed_last (by omega) (by omega), hc, hd, he,
    show ((n / 262144 * 64 + (0x80 + n / 4096 % 64) % 64) * 64 + (0x80 + n / 64 % 64) % 64) * 64 +
    (0x80 + n % 64) % 64 = n by omega]

theorem decodeFrom_utf8Char (hn : Scalar n) (rest : List UInt8) :
    decodeFrom none (utf8Char n ++ rest) = ofChar n ++ decodeFrom none rest := by
  unfold utf8Char
  split_ifs with h1 h2 h3
  · have hfeed : feed none (UInt8.ofNat n) = (ofChar n, none) := by
      rw [feed, startByte, toNat_ofNat8 (by omega), if_pos h1]
    rw [List.singleton_append, decodeFrom, hfeed]
  · exact decodeFrom_two ⟨by omega, h2⟩ rest
  · exact decodeFrom_three hn ⟨by omega, h3⟩ rest
  · exact decodeFrom_four hn (by omega) rest

theorem ofUtf8_utf8Chars {ns : List Nat} (h : ∀ n ∈ ns, Scalar n) :
    ofUtf8 (ns.flatMap utf8Char) = ns.flatMap ofChar := by
  induction ns with
  | nil => rfl
  | cons n ns ih =>
    obtain ⟨hn, hns⟩ := List.forall_mem_cons.mp h
    rw [List.flatMap_cons, List.flatMap_cons, ofUtf8, decodeFrom_utf8Char hn, ← ih hns, ofUtf8]

end

/-! ## What is read is characters -/

/-- Numbers of characters other than ASCII, from a least one to below a bound. -/
def Wide (least bound : Nat) : Prop := 0x80 ≤ least ∧ (bound ≤ 0xD800 ∨ (0xE000 ≤ least ∧ bound ≤ 0x110000))

/-- What has been read of a character will be one that is not ASCII, however it goes on. -/
inductive Partial.Ok : Partial → Prop
  | one {lower upper bits : Nat} : 0x80 ≤ lower → upper ≤ 0xBF →
    Wide (bits * 64 + lower - 0x80) (bits * 64 + upper - 0x7F) → Ok ⟨1, lower, upper, bits⟩
  | two {lower upper bits : Nat} : 0x80 ≤ lower → upper ≤ 0xBF →
    Wide ((bits * 64 + lower - 0x80) * 64) ((bits * 64 + upper - 0x7F) * 64) → Ok ⟨2, lower, upper, bits⟩
  | three {lower upper bits : Nat} : 0x80 ≤ lower → upper ≤ 0xBF →
    Wide ((bits * 64 + lower - 0x80) * 4096) ((bits * 64 + upper - 0x7F) * 4096) → Ok ⟨3, lower, upper, bits⟩

/-- Units that are some characters, the ASCII ones of which are these bytes. -/
def Reads (units : List UInt16) (bytes : List UInt8) : Prop :=
  ∃ ns : List Nat, (∀ n ∈ ns, Scalar n) ∧ ns.flatMap ofChar = units ∧
    ns.filter (· < 0x80) = (bytes.filter (·.toNat < 0x80)).map UInt8.toNat

section
variable {b : UInt8} {units units' : List UInt16} {bytes bytes' : List UInt8}

theorem Reads.nil : Reads [] [] := ⟨[], nofun, rfl, rfl⟩

theorem Reads.append (h : Reads units bytes) (h' : Reads units' bytes') :
    Reads (units ++ units') (bytes ++ bytes') := by
  obtain ⟨ns, hns, rfl, hfilter⟩ := h
  obtain ⟨ns', hns', rfl, hfilter'⟩ := h'
  refine ⟨ns ++ ns', fun n hn => ?_, List.flatMap_append, ?_⟩
  · exact (List.mem_append.mp hn).elim (hns n) (hns' n)
  · rw [List.filter_append, List.filter_append, List.map_append, hfilter, hfilter']

theorem Reads.char {n : Nat} (hn : Scalar n) (hge : 0x80 ≤ n) (hb : 0x80 ≤ b.toNat) : Reads (ofChar n) [b] := by
  refine ⟨[n], List.forall_mem_singleton.mpr hn, List.flatMap_singleton .., ?_⟩
  rw [List.filter_cons_of_neg (by simpa using hge), List.filter_cons_of_neg (by simpa using hb)]
  rfl

theorem Reads.none (hb : 0x80 ≤ b.toNat) : Reads [] [b] := by
  refine ⟨[], nofun, rfl, ?_⟩
  rw [List.filter_cons_of_neg (by simpa using hb)]
  rfl

theorem Reads.ascii (hb : b.toNat < 0x80) : Reads (ofChar b.toNat) [b] := by
  refine ⟨[b.toNat], List.forall_mem_singleton.mpr (.inl (by omega)), List.flatMap_singleton .., ?_⟩
  rw [List.filter_cons_of_pos (by simpa using hb), List.filter_cons_of_pos (by simpa using hb)]
  rfl

theorem Reads.replacement (h : Reads units bytes) : Reads (0xFFFD :: units) bytes := by
  obtain ⟨ns, hns, rfl, hfilter⟩ := h
  refine ⟨0xFFFD :: ns, List.forall_mem_cons.mpr ⟨.inr (by decide), hns⟩, rfl, ?_⟩
  rw [List.filter_cons_of_neg (by decide), hfilter]

theorem startByte_spec (b : UInt8) : Reads (startByte b).1 [b] ∧ ∀ p ∈ (startByte b).2, p.Ok := by
  have hlt := b.toNat_lt
  have hsome : ∀ {p : Partial}, p.Ok → ∀ q ∈ some p, q.Ok := fun hp q hq => Option.some.inj hq ▸ hp
  simp only [startByte]
  split_ifs with h1 h2 hE0 hED hE hF0 hF hF4
  · exact ⟨.ascii h1, nofun⟩
  · exact ⟨.none (by omega), hsome (.one (Nat.le_refl _) (Nat.le_refl _) (by unfold Wide; omega))⟩
  · exact ⟨.none (by omega), hsome (.two (by decide) (Nat.le_refl _) (by unfold Wide; decide))⟩
  · exact ⟨.none (by omega), hsome (.two (Nat.le_refl _) (by decide) (by unfold Wide; decide))⟩
  · exact ⟨.none (by omega), hsome (.two (Nat.le_refl _) (Nat.le_refl _) (by unfold Wide; omega))⟩
  · exact ⟨.none (by omega), hsome (.three (by decide) (Nat.le_refl _) (by unfold Wide; decide))⟩
  · exact ⟨.none (by omega), hsome (.three (Nat.le_refl _) (Nat.le_refl _) (by unfold Wide; omega))⟩
  · exact ⟨.none (by omega), hsome (.three (Nat.le_refl _) (by decide) (by unfold Wide; decide))⟩
  · exact ⟨(Reads.none (by omega)).replacement, nofun⟩

theorem feed_spec {p : Option Partial} (hp : ∀ q ∈ p, q.Ok) (b : UInt8) :
    Reads (feed p b).1 [b] ∧ ∀ q ∈ (feed p b).2, q.Ok := by
  cases p with
  | none => exact startByte_spec b
  | some p =>
    by_cases hb : p.lower ≤ b.toNat ∧ b.toNat ≤ p.upper
    · have hsome : ∀ {p : Partial}, p.Ok → ∀ q ∈ some p, q.Ok := fun hp q hq => Option.some.inj hq ▸ hp
      cases hp p rfl with
      | @one lower upper bits hlower hupper hwide =>
        obtain ⟨hge, hle⟩ : lower ≤ b.toNat ∧ b.toNat ≤ upper := hb
        rw [feed_last hge hle]
        unfold Wide at hwide
        exact ⟨.char (by unfold Scalar; omega) (by omega) (by omega), nofun⟩
      | @two lower upper bits hlower hupper hwide =>
        obtain ⟨hge, hle⟩ : lower ≤ b.toNat ∧ b.toNat ≤ upper := hb
        rw [feed_more hge hle (by decide)]
        unfold Wide at hwide
        exact ⟨.none (by omega), hsome (.one (Nat.le_refl _) (Nat.le_refl _) (by unfold Wide; omega))⟩
      | @three lower upper bits hlower hupper hwide =>
        obtain ⟨hge, hle⟩ : lower ≤ b.toNat ∧ b.toNat ≤ upper := hb
        rw [feed_more hge hle (by decide)]
        unfold Wide at hwide
        exact ⟨.none (by omega), hsome (.two (Nat.le_refl _) (Nat.le_refl _) (by unfold Wide; omega))⟩
    · rw [feed, if_neg hb]
      exact ⟨(startByte_spec b).1.replacement, (startByte_spec b).2⟩

theorem decodeFrom_reads (p : Option Partial) (hp : ∀ q ∈ p, q.Ok) (bytes : List UInt8) :
    Reads (decodeFrom p bytes) bytes := by
  induction bytes generalizing p with
  | nil =>
    cases p with
    | none => exact .nil
    | some p => exact Reads.nil.replacement
  | cons b bytes ih =>
    obtain ⟨hread, hnext⟩ := feed_spec hp b
    rw [decodeFrom]
    · exact hread.append (ih _ hnext)

theorem ofUtf8_reads (bytes : List UInt8) : Reads (ofUtf8 bytes) bytes := decodeFrom_reads none nofun bytes

/-- **Bytes come back exactly if they are UTF-8.** -/
theorem toUtf8_ofUtf8_iff {bytes : List UInt8} : toUtf8 (ofUtf8 bytes) = bytes ↔ IsUtf8 bytes := by
  constructor
  · intro h
    obtain ⟨ns, hns, hunits, -⟩ := ofUtf8_reads bytes
    rw [← hunits, toUtf8_ofChars hns] at h
    exact ⟨ns, hns, h⟩
  · rintro ⟨ns, hns, rfl⟩
    rw [ofUtf8_utf8Chars hns, toUtf8_ofChars hns]

instance : DecidablePred IsUtf8 := fun _ => decidable_of_iff _ toUtf8_ofUtf8_iff

theorem filter_utf8Char {n : Nat} (hn : Scalar n) :
    (utf8Char n).filter (·.toNat < 0x80) = if n < 0x80 then [UInt8.ofNat n] else [] := by
  unfold Scalar at hn
  have hhigh : ∀ {k : Nat}, 0x80 ≤ k → k < 256 → ¬ decide ((UInt8.ofNat k).toNat < 0x80) = true := by
    intro k hge hlt
    rw [toNat_ofNat8 hlt, decide_eq_true_iff]
    omega
  unfold utf8Char
  split_ifs with h1 h2 h3
  · rw [List.filter_cons_of_pos (by rw [toNat_ofNat8 (by omega)]; exact decide_eq_true h1), List.filter_nil]
  all_goals
    rw [List.filter_eq_nil_iff]
    simp only [List.forall_mem_cons]
  · exact ⟨hhigh (by omega) (by omega), hhigh (by omega) (by omega), nofun⟩
  · exact ⟨hhigh (by omega) (by omega), hhigh (by omega) (by omega), hhigh (by omega) (by omega), nofun⟩
  · exact ⟨hhigh (by omega) (by omega), hhigh (by omega) (by omega), hhigh (by omega) (by omega),
      hhigh (by omega) (by omega), nofun⟩

theorem filter_utf8Chars {ns : List Nat} (h : ∀ n ∈ ns, Scalar n) :
    (ns.flatMap utf8Char).filter (·.toNat < 0x80) = (ns.filter (· < 0x80)).map UInt8.ofNat := by
  induction ns with
  | nil => rfl
  | cons n ns ih =>
    obtain ⟨hn, hns⟩ := List.forall_mem_cons.mp h
    rw [List.flatMap_cons, List.filter_append, filter_utf8Char hn, ih hns, List.filter_cons]
    by_cases hlt : n < 0x80
    · rw [if_pos hlt, if_pos (decide_eq_true hlt), List.map_cons, List.singleton_append]
    · rw [if_neg hlt, if_neg (by simpa using hlt), List.nil_append]

theorem filter_toUtf8_ofUtf8 (bytes : List UInt8) :
    (toUtf8 (ofUtf8 bytes)).filter (·.toNat < 0x80) = bytes.filter (·.toNat < 0x80) := by
  obtain ⟨ns, hns, hunits, hfilter⟩ := ofUtf8_reads bytes
  rw [← hunits, toUtf8_ofChars hns, filter_utf8Chars hns, hfilter, List.map_map]
  exact (List.map_congr_left fun b _ => UInt8.ofNat_toNat).trans (List.map_id _)

end

end Lib.Utf16
