/-
`at_command.c`: the response of a modem, which comes in over several reads of the console.

The loop looks at what the bytes so far end with, and at nothing else. So the result of any reads is
that of the first of them at whose end a line is found that ends a response, and a response in which
no such line stands earlier is returned whole, however it is split.
-/
import Signpost.Minmea

namespace Signpost

open Lib Controller

def atSuccess : Int := 0
def atError : Int := -1
def atNoResponse : Int := -2

/-- The line that ends the response to a command that has been done. -/
def okLine : Bytes := ofChars "OK\r\n"

/-- The line that ends the response to one that has not. -/
def errorLine : Bytes := ofChars "ERROR\r\n"

/-- `strncmp(buf + len - line.length, line, line.length) == 0`, where there are so many bytes. -/
def endsIn (buf : Mem UInt8) (len : Nat) (line : Bytes) : Bool :=
  line.length ≤ len && strncmpEq line.length (buf.read (len - line.length) line.length) line

def checkBuffer (buf : Mem UInt8) (len : Nat) : Int :=
  if endsIn buf len okLine then atSuccess
  else if endsIn buf len errorLine then atError
  else atNoResponse

/-- The loop of `at_get_response`, with what the reads of the console give, each of them no more
than it has room for. The read behind these fails, or times out. -/
def atGetResponseLoop (maxLen : Nat) (buf : Mem UInt8) (tlen : Nat) : Nat → List Bytes → Int × Mem UInt8
  | 0, _ => (atNoResponse, buf)
  | _ + 1, [] => (atError, buf)
  | tries + 1, read :: reads =>
    let read := read.take (maxLen - tlen)
    let buf := buf.copy tlen read
    let tlen := tlen + read.length
    let check := checkBuffer buf tlen
    if check = atSuccess then (tlen, buf)
    else if check = atError then (atError, buf)
    else atGetResponseLoop maxLen buf tlen tries reads

def atGetResponse (maxTries : UInt8) (buf : Mem UInt8) (maxLen : Nat) (reads : List Bytes) : Int × Mem UInt8 :=
  atGetResponseLoop maxLen buf 0 maxTries.toNat reads

/-- These bytes end in a line that ends a response. -/
def Final (received : Bytes) : Prop := okLine <:+ received ∨ errorLine <:+ received

instance (received : Bytes) : Decidable (Final received) := inferInstanceAs (Decidable (_ ∨ _))

/-- What is returned for bytes that do. -/
def answer (received : Bytes) : Int := if okLine <:+ received then received.length else atError

/-- What comes in looks like a whole response at the end of no read but the last. -/
def Quiet (reads : List Bytes) : Prop := ∀ k < reads.length, ¬ Final (reads.take k).flatten

section
variable {buf : Mem UInt8} {received read line : Bytes} {maxLen tries : Nat} {reads : List Bytes}

theorem strncmpEq_line (hzero : 0 ∉ line) (hlength : received.length = line.length) :
    strncmpEq line.length received line ↔ received = line := by
  rw [strncmpEq_iff, cstr_of_notMem (a := line) hzero, List.take_length,
    List.take_of_length_le (hlength ▸ length_cstr_le received)]
  constructor
  · intro h
    rw [← h]
    exact (cstr_eq_self (by rw [h, hlength])).symm
  · intro h
    rw [h, cstr_of_notMem hzero]

theorem endsIn_iff (hzero : 0 ∉ line) :
    endsIn (buf.copy 0 received) received.length line ↔ line <:+ received := by
  rw [endsIn, Bool.and_eq_true, decide_eq_true_eq, strncmpEq_line hzero (Mem.length_read ..), List.suffix_iff_eq_drop]
  have hdrop := Mem.drop_read_copy buf (Nat.sub_le received.length line.length)
  constructor
  · rintro ⟨hle, hread⟩
    rwa [Nat.sub_sub_self hle, hread] at hdrop
  · intro hsuffix
    have hle : line.length ≤ received.length := by
      rw [hsuffix, List.length_drop]
      exact Nat.sub_le ..
    rw [Nat.sub_sub_self hle] at hdrop
    exact ⟨hle, hdrop.trans hsuffix.symm⟩

theorem zero_notMem_okLine : 0 ∉ okLine := by decide

theorem zero_notMem_errorLine : 0 ∉ errorLine := by decide

theorem checkBuffer_eq : checkBuffer (buf.copy 0 received) received.length =
    if okLine <:+ received then atSuccess else if errorLine <:+ received then atError else atNoResponse := by
  simp only [checkBuffer, endsIn_iff zero_notMem_okLine, endsIn_iff zero_notMem_errorLine]

theorem atGetResponseLoop_cons (hfits : received.length + read.length ≤ maxLen) :
    atGetResponseLoop maxLen (buf.copy 0 received) received.length (tries + 1) (read :: reads) =
      if Final (received ++ read) then (answer (received ++ read), buf.copy 0 (received ++ read))
      else atGetResponseLoop maxLen (buf.copy 0 (received ++ read)) (received ++ read).length tries reads := by
  have hread : read.take (maxLen - received.length) = read := List.take_of_length_le (by omega)
  have hcopy : (buf.copy 0 received).copy received.length read = buf.copy 0 (received ++ read) := by
    have h := Mem.copy_append buf 0 received read
    rwa [Nat.zero_add] at h
  rw [atGetResponseLoop, hread, hcopy, ← List.length_append, checkBuffer_eq, answer]
  by_cases hok : okLine <:+ received ++ read
  · simp only [Final, hok, true_or, if_true]
  · by_cases herror : errorLine <:+ received ++ read
    · simp only [Final, hok, herror, or_true, if_true, if_false]
      rfl
    · simp only [Final, hok, herror, or_false, if_false]
      rfl

theorem atGetResponseLoop_append (received : Bytes) {before : List Bytes}
    (hfits : received.length + before.flatten.length ≤ maxLen)
    (hbefore : ∀ j ≤ before.length, 0 < j → ¬ Final (received ++ (before.take j).flatten)) :
    atGetResponseLoop maxLen (buf.copy 0 received) received.length (before.length + tries) (before ++ reads) =
      atGetResponseLoop maxLen (buf.copy 0 (received ++ before.flatten)) (received ++ before.flatten).length
        tries reads := by
  induction before generalizing received with
  | nil => rw [List.flatten_nil, List.append_nil, List.length_nil, Nat.zero_add, List.nil_append]
  | cons read before ih =>
    have hfirst := hbefore 1 (by simp) Nat.one_pos
    rw [List.take_succ_cons, List.take_zero, List.flatten_cons, List.flatten_nil, List.append_nil] at hfirst
    rw [List.flatten_cons, List.length_append, ← Nat.add_assoc] at hfits
    rw [List.length_cons, Nat.add_right_comm, List.cons_append, atGetResponseLoop_cons (by omega), if_neg hfirst,
      List.flatten_cons, ← List.append_assoc]
    refine ih _ (by rwa [List.length_append]) fun j hj hpos => ?_
    have hlater := hbefore (j + 1) (Nat.succ_le_succ hj) (Nat.succ_pos j)
    rwa [List.take_succ_cons, List.flatten_cons, ← List.append_assoc] at hlater

/-- It is done at the first read that makes what has come in look like a whole response. -/
theorem atGetResponseLoop_final (received : Bytes) {k : Nat} (hfits : received.length + reads.flatten.length ≤ maxLen)
    (hk : k < reads.length) (htries : k < tries)
    (hbefore : ∀ j ≤ k, 0 < j → ¬ Final (received ++ (reads.take j).flatten))
    (hfinal : Final (received ++ (reads.take (k + 1)).flatten)) :
    atGetResponseLoop maxLen (buf.copy 0 received) received.length tries reads =
      (answer (received ++ (reads.take (k + 1)).flatten),
        buf.copy 0 (received ++ (reads.take (k + 1)).flatten)) := by
  obtain ⟨before, read, after, rfl, rfl⟩ : ∃ before read after, reads = before ++ read :: after ∧ before.length = k :=
    ⟨reads.take k, reads[k], reads.drop (k + 1), by rw [← List.drop_eq_getElem_cons hk, List.take_append_drop],
      List.length_take_of_le (Nat.le_of_lt hk)⟩
  obtain ⟨left, rfl⟩ : ∃ left, tries = before.length + (left + 1) := ⟨tries - before.length - 1, by omega⟩
  have htake : ((before ++ read :: after).take (before.length + 1)).flatten = before.flatten ++ read := by
    rw [List.take_length_add_append, List.take_succ_cons, List.take_zero, List.flatten_append]
    exact congrArg _ (List.append_nil read)
  rw [List.flatten_append, List.flatten_cons, List.length_append, List.length_append] at hfits
  rw [htake, ← List.append_assoc] at hfinal ⊢
  rw [atGetResponseLoop_append received (by omega) fun j hj hpos => ?_,
    atGetResponseLoop_cons (by rw [List.length_append]; omega), if_pos hfinal]
  have hquiet := hbefore j hj hpos
  rwa [List.take_append_of_le_length hj] at hquiet

/-- If none does, it is done when there is nothing more to read, or when it has read often enough. -/
theorem atGetResponseLoop_none (received : Bytes) (hfits : received.length + reads.flatten.length ≤ maxLen)
    (htries : reads.length ≤ tries)
    (hnone : ∀ j ≤ reads.length, 0 < j → ¬ Final (received ++ (reads.take j).flatten)) :
    atGetResponseLoop maxLen (buf.copy 0 received) received.length tries reads =
      (if reads.length < tries then atError else atNoResponse, buf.copy 0 (received ++ reads.flatten)) := by
  obtain ⟨left, rfl⟩ := Nat.exists_eq_add_of_le htries
  have hgathered : atGetResponseLoop maxLen (buf.copy 0 received) received.length (reads.length + left) (reads ++ []) =
      atGetResponseLoop maxLen (buf.copy 0 (received ++ reads.flatten)) (received ++ reads.flatten).length left [] :=
    atGetResponseLoop_append received hfits hnone
  rw [List.append_nil] at hgathered
  rw [hgathered]
  cases left with
  | zero => exact congrArg (·, _) (if_neg (Nat.lt_irrefl _)).symm
  | succ left => exact congrArg (·, _) (if_pos (Nat.lt_add_of_pos_right (Nat.succ_pos left))).symm

theorem not_final_nil : ¬ Final [] := by decide

theorem not_okLine_of_errorLine (h : errorLine <:+ received) : ¬ okLine <:+ received := by
  intro hok
  rcases List.suffix_or_suffix_of_suffix hok h with hsuffix | hsuffix
  · exact absurd hsuffix (by decide)
  · exact absurd hsuffix (by decide)

theorem answer_ok (h : okLine <:+ received) : answer received = received.length := if_pos h

theorem answer_error (h : errorLine <:+ received) : answer received = atError := if_neg (not_okLine_of_errorLine h)

theorem atGetResponse_final (buf : Mem UInt8) {maxTries : UInt8} {k : Nat} (hfits : reads.flatten.length ≤ maxLen)
    (hk : k ≤ reads.length) (htries : k ≤ maxTries.toNat) (hbefore : ∀ j < k, ¬ Final (reads.take j).flatten)
    (hfinal : Final (reads.take k).flatten) :
    atGetResponse maxTries buf maxLen reads = (answer (reads.take k).flatten, buf.copy 0 (reads.take k).flatten) := by
  cases k with
  | zero => exact absurd hfinal not_final_nil
  | succ k =>
    exact atGetResponseLoop_final [] (by simpa using hfits) hk htries
      (fun j hj _ => hbefore j (Nat.lt_succ_of_le hj)) hfinal

theorem atGetResponse_one {response : Bytes} {maxTries : UInt8} (hok : okLine <:+ response)
    (hfits : response.length ≤ maxLen) (htries : 1 ≤ maxTries.toNat) :
    atGetResponse maxTries buf maxLen [response] = ((response.length : Int), buf.copy 0 response) := by
  have hflatten : [response].flatten = response := List.append_nil _
  have hbefore : ∀ j < 1, ¬ Final ([response].take j).flatten := fun j hj => by
    obtain rfl := Nat.lt_one_iff.mp hj
    exact not_final_nil
  have h := atGetResponse_final buf (hflatten.symm ▸ hfits) (Nat.le_refl 1) htries
    hbefore (hflatten.symm ▸ .inl hok)
  rwa [List.take_succ_cons, List.take_zero, hflatten, answer_ok hok] at h

/-- A response that is split looks the same to `at_get_response` for every split in which it does not look
whole before it is; else what came in up to there is taken for it. -/
theorem atGetResponse_split {response : Bytes} {maxTries : UInt8} (hsplit : reads.flatten = response)
    (hfits : response.length ≤ maxLen) (htries : reads.length ≤ maxTries.toNat) :
    (Quiet reads →
      (okLine <:+ response →
        atGetResponse maxTries buf maxLen reads = ((response.length : Int), buf.copy 0 response)) ∧
      (errorLine <:+ response → atGetResponse maxTries buf maxLen reads = (atError, buf.copy 0 response)) ∧
      (¬ Final response → atGetResponse maxTries buf maxLen reads =
        (if reads.length < maxTries.toNat then atError else atNoResponse, buf.copy 0 response))) ∧
    (¬ Quiet reads → ∃ received, (∃ k < reads.length, received = (reads.take k).flatten ∧
        ∀ j < k, ¬ Final (reads.take j).flatten) ∧
      (okLine <:+ received ∧
          atGetResponse maxTries buf maxLen reads = ((received.length : Int), buf.copy 0 received) ∨
        errorLine <:+ received ∧ atGetResponse maxTries buf maxLen reads = (atError, buf.copy 0 received))) := by
  subst hsplit
  have hwhole : reads.take reads.length = reads := List.take_length
  refine ⟨fun hquiet => ?_, fun hnot => ?_⟩
  · have hfinal : Final reads.flatten → atGetResponse maxTries buf maxLen reads =
        (answer reads.flatten, buf.copy 0 reads.flatten) := fun hfinal => by
      have h := atGetResponse_final buf hfits (Nat.le_refl _) htries hquiet (hwhole.symm ▸ hfinal)
      rwa [hwhole] at h
    refine ⟨fun hok => ?_, fun herror => ?_, fun hnone => ?_⟩
    · rw [hfinal (.inl hok), answer_ok hok]
    · rw [hfinal (.inr herror), answer_error herror]
    · refine atGetResponseLoop_none [] (by simpa using hfits) htries fun j hj _ => ?_
      obtain hlt | rfl := Nat.lt_or_eq_of_le hj
      · exact hquiet j hlt
      · rwa [hwhole]
  · have hex : ∃ k, k < reads.length ∧ Final (reads.take k).flatten := by
      simpa only [Quiet, not_forall, not_not, exists_prop] using hnot
    obtain ⟨hk, hfinal⟩ := Nat.find_spec hex
    have hbefore : ∀ j < Nat.find hex, ¬ Final (reads.take j).flatten := fun j hj hfinal =>
      Nat.find_min hex hj ⟨Nat.lt_trans hj hk, hfinal⟩
    refine ⟨_, ⟨Nat.find hex, hk, rfl, hbefore⟩, ?_⟩
    rw [atGetResponse_final buf hfits (Nat.le_of_lt hk) (Nat.le_trans (Nat.le_of_lt hk) htries) hbefore hfinal]
    rcases hfinal with hok | herror
    · exact .inl ⟨hok, by rw [answer_ok hok]⟩
    · exact .inr ⟨herror, by rw [answer_error herror]⟩

/-! ## Any reads -/

theorem atGetResponseLoop_spec (maxLen : Nat) (buf : Mem UInt8) (tries : Nat) (reads : List Bytes) (received : Bytes)
    (hfits : received.length ≤ maxLen) :
    ∃ response : Bytes, response.length ≤ maxLen ∧
      ∃ rc, atGetResponseLoop maxLen (buf.copy 0 received) received.length tries reads = (rc, buf.copy 0 response) ∧
        (rc = atError ∨ rc = atNoResponse ∨ okLine <:+ response ∧ rc = response.length) := by
  induction tries generalizing received reads with
  | zero => exact ⟨received, hfits, _, rfl, .inr (.inl rfl)⟩
  | succ tries ih =>
    cases reads with
    | nil => exact ⟨received, hfits, _, rfl, .inl rfl⟩
    | cons read reads =>
      -- What is read is no more than there is room for.
      have hread : (read.take (maxLen - received.length)).length ≤ maxLen - received.length := List.length_take_le ..
      have hroom : received.length + (read.take (maxLen - received.length)).length ≤ maxLen := by omega
      have hsame : atGetResponseLoop maxLen (buf.copy 0 received) received.length (tries + 1) (read :: reads) =
          atGetResponseLoop maxLen (buf.copy 0 received) received.length (tries + 1)
            (read.take (maxLen - received.length) :: reads) := by
        rw [atGetResponseLoop, atGetResponseLoop, List.take_take, Nat.min_self]
      rw [hsame, atGetResponseLoop_cons hroom]
      split
      · next hfinal =>
        refine ⟨_, by rwa [List.length_append], _, rfl, ?_⟩
        rcases hfinal with hok | herror
        · exact .inr (.inr ⟨hok, answer_ok hok⟩)
        · exact .inl (answer_error herror)
      · exact ih reads _ (by rwa [List.length_append])

/-- It returns an error, or has received a response that has been done, and returns its length. -/
theorem atGetResponse_spec (maxTries : UInt8) (buf : Mem UInt8) (maxLen : Nat) (reads : List Bytes) :
    ∃ response : Bytes, response.length ≤ maxLen ∧ ∃ rc,
      atGetResponse maxTries buf maxLen reads = (rc, buf.copy 0 response) ∧
        (rc < 0 ∨ okLine <:+ response ∧ rc = response.length) := by
  obtain ⟨response, hfits, rc, hget, herror | hnone | hok⟩ :=
    atGetResponseLoop_spec maxLen buf maxTries.toNat reads [] (Nat.zero_le _)
  · exact ⟨response, hfits, rc, hget, .inl (herror ▸ by decide)⟩
  · exact ⟨response, hfits, rc, hget, .inl (hnone ▸ by decide)⟩
  · exact ⟨response, hfits, rc, hget, .inr hok⟩

/-! ## A response in which nothing looks like its end -/

theorem not_final_take {front : Bytes} {k : Nat} (hO : chr 'O' ∉ front) (hR : chr 'R' ∉ front)
    (hk : k < (front ++ okLine).length) : ¬ Final ((front ++ okLine).take k) := by
  rintro (⟨pre, hpre⟩ | ⟨pre, hpre⟩)
  · -- This would begin before the one at the end.
    have hlength := congrArg List.length hpre
    rw [List.length_append, List.length_take_of_le (Nat.le_of_lt hk)] at hlength
    rw [List.length_append] at hk
    have hlt : pre.length < front.length := by omega
    have hhead : ((front ++ okLine).take k)[pre.length]? = some (chr 'O') := by
      rw [← hpre, List.getElem?_append_right (Nat.le_refl _), Nat.sub_self]
      rfl
    rw [List.getElem?_take_of_lt (by have : okLine.length = 4 := rfl; omega), List.getElem?_append_left hlt] at hhead
    exact hO (List.mem_of_getElem? hhead)
  · have hmem : chr 'R' ∈ front ++ okLine := by
      refine List.mem_of_mem_take (i := k) ?_
      rw [← hpre]
      exact List.mem_append_right _ (by decide)
    rcases List.mem_append.mp hmem with hmem | hmem
    · exact hR hmem
    · exact absurd hmem (by decide)

theorem atGetResponse_whole {response : Bytes} {maxTries : UInt8} (hok : okLine <:+ response)
    (hproper : ∀ k < response.length, ¬ Final (response.take k)) (hsplit : reads.flatten = response)
    (hfits : response.length ≤ maxLen) (htries : reads.length ≤ maxTries.toNat) :
    atGetResponse maxTries buf maxLen reads = ((response.length : Int), buf.copy 0 response) := by
  have hex : ∃ k, Final (reads.take k).flatten := ⟨reads.length, by rw [List.take_length, hsplit]; exact .inl hok⟩
  have hle : Nat.find hex ≤ reads.length := Nat.find_min' hex (by rw [List.take_length, hsplit]; exact .inl hok)
  have hwhole : (reads.take (Nat.find hex)).flatten = response := by
    have hfirst : (reads.take (Nat.find hex)).flatten <+: response :=
      ⟨(reads.drop (Nat.find hex)).flatten, by rw [← List.flatten_append, List.take_append_drop, hsplit]⟩
    rw [List.prefix_iff_eq_take] at hfirst
    rw [hfirst]
    refine List.take_of_length_le (Nat.le_of_not_lt fun hlt => hproper _ hlt ?_)
    rw [← hfirst]
    exact Nat.find_spec hex
  rw [atGetResponse_final buf (hsplit ▸ hfits) hle (Nat.le_trans hle htries) (fun j hj => Nat.find_min hex hj)
    (Nat.find_spec hex), hwhole, answer_ok hok]

end

theorem atGetResponse_split_two : atGetResponse 3 (fun _ => 0) 200 [ofChars "\r\nO", ofChars "K\r\n"] =
    (6, Mem.copy (fun _ => 0) 0 (ofChars "\r\nOK\r\n")) :=
  have hsplit : [ofChars "\r\nO", ofChars "K\r\n"].flatten = ofChars "\r\nOK\r\n" := by decide
  have hfits : (ofChars "\r\nOK\r\n").length ≤ 200 := by decide
  have htries : [ofChars "\r\nO", ofChars "K\r\n"].length ≤ (3 : UInt8).toNat := by decide
  ((atGetResponse_split hsplit hfits htries).1 (by unfold Quiet; decide)).1 (by decide)

/-- A response with data that ends as a response does: all of it, or its first line. -/
theorem atGetResponse_chunked :
    (atGetResponse 3 (fun _ => 0) 200 [ofChars "OK\r\n\r\nOK\r\n"]).1 = 10 ∧
      (atGetResponse 3 (fun _ => 0) 200 [ofChars "OK\r\n", ofChars "\r\nOK\r\n"]).1 = 4 := by
  decide

end Signpost
