/-
`sara_u260_read_file`: where the length of the data stands in the modem's response, and what is
copied out of it.

Nothing bounds a copy here: it may run over the end of `dl`, and begin in front of `tbuf`.

The response is any bytes, split in any way over the reads. What stands between its first two commas
is taken for the length of the data, and the condition for a safe copy is on that text and on where
the commas are.
-/
import Signpost.AtCommand

namespace Signpost

open Lib Controller

def saraU260Error : Int := -1

/-- The offsets of two commas, where `0` is none: the loop over the response, from `i` on. -/
def findCommas (i c1 c2 : Nat) : Bytes → Nat × Nat
  | [] => (c1, c2)
  | b :: tbuf =>
    if b = chr ',' then
      if c1 = 0 then findCommas (i + 1) i c2 tbuf
      else if c2 = 0 then (c1, i)
      else (c1, c2)
    else findCommas (i + 1) c1 c2 tbuf

/-- `atoi` of the string that bytes start with. -/
def atoi (s : Bytes) : Int := (strtol (cstr s)).1

/-- A `memcpy` from `tbuf + offset`. -/
structure FileCopy where
  offset : Int
  size : Nat

/-- What `sara_u260_read_file` returns and leaves in `buf`, and its copies to `dl` and to `buf`, if it
gets so far. -/
structure FileRead where
  ret : Int
  buf : Mem UInt8
  lengthCopy : Option FileCopy
  dataCopy : Option FileCopy

def FileRead.error (buf : Mem UInt8) (lengthCopy : Option FileCopy) : FileRead :=
  ⟨saraU260Error, buf, lengthCopy, none⟩

/-- What is at an offset from a pointer, which may be in front of it. -/
def cellAt (before m : Mem UInt8) (i : Int) : UInt8 := if 0 ≤ i then m i.toNat else before (-i - 1).toNat

/-- `dl`, with what is behind it, after a field was copied there. -/
def lengthField (field behind : Bytes) : Bytes := field ++ (List.replicate 10 0 ++ behind).drop field.length

/-- `sara_u260_read_file`, from where it has a response of `len` bytes. -/
def saraU260CopyFile (before tbuf : Mem UInt8) (behind : Bytes) (len : Nat) (buf : Mem UInt8) (maxLen : UInt32) :
    FileRead :=
  let (c1, c2) := findCommas 0 0 0 (tbuf.read 0 len)
  if c1 = 0 ∨ c2 = 0 then .error buf none
  else
    let lengthCopy := some ⟨c1 + 1, c2 - c1 - 1⟩
    let dl := lengthField (tbuf.read (c1 + 1) (c2 - c1 - 1)) behind
    let dlen := atoi dl
    if 0 ≤ dlen ∧ UInt32.ofInt dlen > maxLen then .error buf lengthCopy
    else
      let offset : Int := len - 7 - dlen
      let size := (UInt32.ofInt dlen).toNat
      { ret := dlen
        buf := buf.copy 0 ((List.range size).map fun (i : Nat) => cellAt before tbuf (offset + i))
        lengthCopy
        dataCopy := some ⟨offset, size⟩ }

/-- `sara_u260_read_file`, with what its sends return, the memory it gets, with what is in front of that and
behind `dl`, and what the modem answers. -/
def saraU260ReadFile (sends : List Int) (malloc : Option (Mem UInt8)) (before : Mem UInt8) (behind : Bytes)
    (reads : List Bytes) (buf : Mem UInt8) (maxLen : UInt32) : FileRead :=
  if sends.any (· < 0) then .error buf none
  else
    let len := maxLen + 100
    match malloc with
    | none => .error buf none
    | some tbuf =>
      let (ret, tbuf) := atGetResponse 3 tbuf len.toNat reads
      if ret < 0 then .error buf none
      else saraU260CopyFile before tbuf behind ret.toNat buf maxLen

/-- What is copied is inside a response of so many bytes. -/
def FileCopy.Inside (copy : FileCopy) (len : Nat) : Prop :=
  copy.size = 0 ∨ 0 ≤ copy.offset ∧ copy.offset + copy.size ≤ len

/-- Every copy is inside the response, and no longer than what it is to; and an error is returned, or a length. -/
structure FileRead.Safe (r : FileRead) (len : Nat) (maxLen : UInt32) : Prop where
  length : ∀ copy ∈ r.lengthCopy, copy.Inside len ∧ copy.size ≤ 9
  data : ∀ copy ∈ r.dataCopy, copy.Inside len ∧ copy.size ≤ maxLen.toNat
  ret : r.ret = saraU260Error ∨ 0 ≤ r.ret ∧ r.ret ≤ maxLen.toNat

/-- The modem has answered with this response, and it has come in. -/
def SaraAnswers (sends : List Int) (malloc : Option (Mem UInt8)) (reads : List Bytes) (maxLen : UInt32)
    (response : Bytes) : Prop :=
  (¬ sends.any (· < 0)) ∧ ∃ tbuf, malloc = some tbuf ∧
    atGetResponse 3 tbuf (maxLen + 100).toNat reads = ((response.length : Int), tbuf.copy 0 response)

/-- The field between the commas fits, and is no number, or one that is too large, or one of as many
bytes as there are. -/
def FileReadable (response : Bytes) (maxLen : UInt32) : Prop :=
  let (c1, c2) := findCommas 0 0 0 response
  let field := (response.drop (c1 + 1)).take (c2 - c1 - 1)
  c1 = 0 ∨ c2 = 0 ∨
    (field.length ≤ 9 ∧ (maxLen.toNat < atoi field ∨ 0 ≤ atoi field ∧ atoi field ≤ (response.length - 7 : Nat)))

instance (response : Bytes) (maxLen : UInt32) : Decidable (FileReadable response maxLen) :=
  inferInstanceAs (Decidable (_ ∨ _ ∨ _))

section
variable {response field behind : Bytes} {before tbuf buf : Mem UInt8} {maxLen : UInt32} {i c1 c2 : Nat}

theorem findCommas_lt (response : Bytes) (h : 0 < c1 ∧ c1 < i ∨ c1 = 0) :
    (findCommas i c1 0 response).1 = 0 ∨ (findCommas i c1 0 response).2 = 0 ∨
      ((findCommas i c1 0 response).1 < (findCommas i c1 0 response).2 ∧
        (findCommas i c1 0 response).2 < i + response.length) := by
  induction response generalizing i c1 with
  | nil => exact .inr (.inl rfl)
  | cons b response ih =>
    rw [findCommas, List.length_cons, Nat.add_comm response.length, ← Nat.add_assoc]
    split
    · split
      · exact ih (by omega)
      · next hc1 =>
        rw [if_pos rfl]
        exact .inr (.inr ⟨(h.resolve_right hc1).2, by omega⟩)
    · exact ih (by omega)

theorem read_field (tbuf : Mem UInt8) (hlt : c1 < c2) (hlen : c2 < response.length) :
    (tbuf.copy 0 response).read (c1 + 1) (c2 - c1 - 1) = (response.drop (c1 + 1)).take (c2 - c1 - 1) ∧
      ((response.drop (c1 + 1)).take (c2 - c1 - 1)).length = c2 - c1 - 1 := by
  have hdrop := Mem.drop_read_copy tbuf (show c1 + 1 ≤ response.length by omega)
  have htake := Mem.take_read (tbuf.copy 0 response) (c1 + 1) (c2 - c1 - 1) (response.length - (c1 + 1))
  rw [Nat.min_eq_left (by omega)] at htake
  refine ⟨by rw [← hdrop, htake], ?_⟩
  rw [List.length_take, List.length_drop]
  omega

theorem cstr_append_zero (a b : Bytes) : cstr (a ++ 0 :: b) = cstr a := by
  induction a with
  | nil => rfl
  | cons x a ih =>
    by_cases hx : x = 0
    · subst hx
      rfl
    · rw [List.cons_append, cstr_cons hx, cstr_cons hx, ih]

theorem atoi_lengthField (h : field.length ≤ 9) : atoi (lengthField field behind) = atoi field := by
  obtain ⟨k, hk⟩ := Nat.exists_eq_add_of_le h
  have hrest : (List.replicate 10 (0 : UInt8) ++ behind).drop field.length =
      0 :: (List.replicate k 0 ++ behind) := by
    rw [show 10 = field.length + (k + 1) by omega, List.replicate_add, List.append_assoc,
      List.drop_left' (List.length_replicate ..)]
    rfl
  rw [atoi, atoi, lengthField, hrest, cstr_append_zero]

theorem strtol_range (s : Bytes) : -2 ^ 31 ≤ (strtol s).1 ∧ (strtol s).1 < 2 ^ 31 := by
  have hclamp : ∀ (p : Prop) [Decidable p] (value : Int) (rest : Bytes),
      -2 ^ 31 ≤ (if p then ((0 : Int), s) else (max (-2 ^ 31) (min value (2 ^ 31 - 1)), rest)).1 ∧
        (if p then ((0 : Int), s) else (max (-2 ^ 31) (min value (2 ^ 31 - 1)), rest)).1 < 2 ^ 31 := by
    intro p _ value rest
    split
    · exact ⟨show (-2 ^ 31 : Int) ≤ 0 by decide, show (0 : Int) < 2 ^ 31 by decide⟩
    · simp only
      omega
  exact hclamp _ _ _

/-- What is copied to `buf` for a number that is not too large: no byte, or bytes of the response. -/
theorem dataCopy_inside {len : Nat} {dlen : Int} (hrange : -2 ^ 31 ≤ dlen ∧ dlen < 2 ^ 31)
    (hmax : dlen ≤ maxLen.toNat) :
    ((⟨len - 7 - dlen, (UInt32.ofInt dlen).toNat⟩ : FileCopy).Inside len ∧ (UInt32.ofInt dlen).toNat ≤ maxLen.toNat ∧
      (dlen = saraU260Error ∨ 0 ≤ dlen ∧ dlen ≤ maxLen.toNat)) ↔ 0 ≤ dlen ∧ dlen ≤ (len - 7 : Nat) := by
  rcases Int.lt_or_le dlen 0 with hneg | hnonneg
  · refine iff_of_false (fun h => ?_) (fun h => absurd h.1 (Int.not_le.mpr hneg))
    -- The size reaches over the end of every response.
    have hsize : ((UInt32.ofInt dlen).toNat : Int) = dlen + 2 ^ 32 := by
      rw [UInt32.ofInt, UInt32.toNat_ofNat']
      omega
    obtain ⟨hzero | hinside, -⟩ := h
    · simp only at hzero
      omega
    · simp only at hinside
      omega
  · obtain ⟨n, rfl⟩ := Int.eq_ofNat_of_zero_le hnonneg
    rw [toNat_ofInt (by omega), FileCopy.Inside]
    simp only [saraU260Error]
    omega

theorem toNat_ofInt_lt {dlen : Int} (hrange : dlen < 2 ^ 31) (hnonneg : 0 ≤ dlen) :
    UInt32.ofInt dlen > maxLen ↔ maxLen.toNat < dlen := by
  obtain ⟨n, rfl⟩ := Int.eq_ofNat_of_zero_le hnonneg
  rw [gt_iff_lt, UInt32.lt_iff_toNat_lt, toNat_ofInt (by omega)]
  omega

theorem saraU260CopyFile_safe : (saraU260CopyFile before (tbuf.copy 0 response) behind response.length buf maxLen).Safe
    response.length maxLen ↔ FileReadable response maxLen := by
  have hcommas := findCommas_lt response (i := 0) (.inr rfl)
  rw [saraU260CopyFile, Mem.read_copy, FileReadable]
  generalize findCommas 0 0 0 response = commas at hcommas
  obtain ⟨c1, c2⟩ := commas
  simp only [Nat.zero_add] at hcommas ⊢
  by_cases hnone : c1 = 0 ∨ c2 = 0
  · rw [if_pos hnone, ← or_assoc]
    exact iff_of_true ⟨by simp [FileRead.error], by simp [FileRead.error], .inl rfl⟩ (.inl hnone)
  obtain ⟨hlt, hlen⟩ := (hcommas.resolve_left (not_or.mp hnone).1).resolve_left (not_or.mp hnone).2
  obtain ⟨hread, hfield⟩ := read_field tbuf hlt hlen
  rw [if_neg hnone, hread, ← or_assoc, or_iff_right hnone]
  generalize (response.drop (c1 + 1)).take (c2 - c1 - 1) = field at hfield
  by_cases hfits : field.length ≤ 9
  · have hcopy : ∀ copy ∈ some (⟨(c1 : Int) + 1, c2 - c1 - 1⟩ : FileCopy),
        copy.Inside response.length ∧ copy.size ≤ 9 := by
      rintro _ ⟨⟩
      refine ⟨.inr ⟨?_, ?_⟩, ?_⟩ <;> simp only <;> omega
    have hrange := strtol_range (cstr field)
    rw [atoi_lengthField hfits, and_iff_right hfits]
    change -2 ^ 31 ≤ atoi field ∧ atoi field < 2 ^ 31 at hrange
    by_cases hlarge : 0 ≤ atoi field ∧ UInt32.ofInt (atoi field) > maxLen
    · rw [if_pos hlarge]
      exact iff_of_true ⟨hcopy, by simp [FileRead.error], .inl rfl⟩
        (.inl ((toNat_ofInt_lt hrange.2 hlarge.1).mp hlarge.2))
    · have hmax : atoi field ≤ maxLen.toNat := by
        by_contra hmax
        exact hlarge ⟨by omega, (toNat_ofInt_lt hrange.2 (by omega)).mpr (by omega)⟩
      rw [if_neg hlarge, or_iff_right (by omega), ← dataCopy_inside hrange hmax]
      constructor
      · intro h
        exact ⟨(h.data _ rfl).1, (h.data _ rfl).2, h.ret⟩
      · rintro ⟨hinside, hsize, hret⟩
        refine ⟨hcopy, ?_, hret⟩
        rintro _ ⟨⟩
        exact ⟨hinside, hsize⟩
  · refine iff_of_false (fun h => hfits ?_) fun h => hfits h.1
    rw [hfield]
    split at h
    · exact (h.length _ rfl).2
    · exact (h.length _ rfl).2

variable {sends : List Int} {malloc : Option (Mem UInt8)} {reads : List Bytes}

theorem saraU260ReadFile_eq (h : SaraAnswers sends malloc reads maxLen response) : ∃ tbuf : Mem UInt8,
    saraU260ReadFile sends malloc before behind reads buf maxLen =
      saraU260CopyFile before (tbuf.copy 0 response) behind response.length buf maxLen := by
  obtain ⟨hsends, tbuf, rfl, hget⟩ := h
  refine ⟨tbuf, ?_⟩
  simp only [saraU260ReadFile, if_neg hsends, hget, Int.toNat_natCast]
  rw [if_neg (Int.not_lt.mpr (Int.natCast_nonneg _))]

theorem saraU260ReadFile_error (h : ∀ response, ¬ SaraAnswers sends malloc reads maxLen response) :
    saraU260ReadFile sends malloc before behind reads buf maxLen = .error buf none := by
  unfold saraU260ReadFile
  split
  · rfl
  · next hsends =>
    cases malloc with
    | none => rfl
    | some tbuf =>
      obtain ⟨response, -, rc, hget, hrc⟩ := atGetResponse_spec 3 tbuf (maxLen + 100).toNat reads
      simp only [hget]
      refine if_pos (hrc.resolve_right fun ⟨_, hlength⟩ => h response ⟨hsends, tbuf, rfl, ?_⟩)
      rw [hget, hlength]

end

/-- Of every response that comes in, all that is copied is inside, fits, and is what is returned, exactly when
the response is readable; and when none does, nothing is copied, and an error is returned. -/
theorem saraU260ReadFile_safe (sends : List Int) (malloc : Option (Mem UInt8)) (before : Mem UInt8) (behind : Bytes)
    (reads : List Bytes) (buf : Mem UInt8) (maxLen : UInt32) :
    (∀ response, SaraAnswers sends malloc reads maxLen response →
      ((saraU260ReadFile sends malloc before behind reads buf maxLen).Safe response.length maxLen ↔
        FileReadable response maxLen)) ∧
    ((∀ response, ¬ SaraAnswers sends malloc reads maxLen response) →
      saraU260ReadFile sends malloc before behind reads buf maxLen = .error buf none) := by
  refine ⟨fun response h => ?_, saraU260ReadFile_error⟩
  obtain ⟨tbuf, heq⟩ := saraU260ReadFile_eq h
  rw [heq]
  exact saraU260CopyFile_safe

theorem saraAnswers_one {response : Bytes} {maxLen : UInt32} (hok : okLine <:+ response)
    (hfits : response.length ≤ (maxLen + 100).toNat) :
    SaraAnswers [0, 0, 0, 0] (some fun _ => 0) [response] maxLen response :=
  ⟨by decide, _, rfl, atGetResponse_one hok hfits (by decide)⟩

theorem saraU260ReadFile_safe_two :
    (saraU260ReadFile [0, 0, 0, 0] (some fun _ => 0) (fun _ => 0) []
      [ofChars "+URDBLOCK: \"f\",2,\"AB\"\r\nOK\r\n"] (fun _ => 0) 20).Safe 27 20 :=
  ((saraU260ReadFile_safe [0, 0, 0, 0] (some fun _ => 0) (fun _ => 0) []
    [ofChars "+URDBLOCK: \"f\",2,\"AB\"\r\nOK\r\n"] (fun _ => 0) 20).1 _
      (saraAnswers_one (by decide) (by decide))).mpr (by decide)

/-- A response of one read that is accepted, where there is room for 20 bytes, and copied wrong. -/
def ReadsWrong (response : Bytes) : Prop :=
  SaraAnswers [0, 0, 0, 0] (some fun _ => 0) [response] 20 response ∧
    ¬ (saraU260ReadFile [0, 0, 0, 0] (some fun _ => 0) (fun _ => 0) [] [response] (fun _ => 0) 20).Safe
      response.length 20

theorem readsWrong {response : Bytes} (hok : okLine <:+ response) (hfits : response.length ≤ 120)
    (hunreadable : ¬ FileReadable response 20) : ReadsWrong response := by
  have hanswers : SaraAnswers [0, 0, 0, 0] (some fun _ => 0) [response] 20 response := saraAnswers_one hok hfits
  obtain ⟨tbuf, heq⟩ := saraU260ReadFile_eq hanswers
  refine ⟨hanswers, fun hsafe => hunreadable ?_⟩
  rw [heq] at hsafe
  exact saraU260CopyFile_safe.mp hsafe

/-- A negative length, one that is larger than the response, and one of ten characters. -/
theorem saraU260ReadFile_unsafe :
    ReadsWrong (ofChars "f,-1,\"\"\r\nOK\r\n") ∧ ReadsWrong (ofChars "f,20,\"\"\r\nOK\r\n") ∧
      ReadsWrong (ofChars "f,0000000002,\"AB\"\r\nOK\r\n") :=
  ⟨readsWrong (by decide) (by decide) (by decide), readsWrong (by decide) (by decide) (by decide),
    readsWrong (by decide) (by decide) (by decide)⟩

end Signpost
