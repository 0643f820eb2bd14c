/-
The console driver as a server of writes, one at a time: what it transmits of
each, and when it signals the app.

The driver does not serve every write. The conditions under which it does are
guards on the steps of its runs.

`Serving` relates the driver to the server of `Lib.Server`: which write is being
served, how much of it has gone and which writes wait. Each function of the
driver has its lemma about this relation.
-/
import Signpost.GpsConsole
import Signpost.Lib.Chunks
import Signpost.Lib.History
import Signpost.Lib.Server

namespace Signpost

open Lib

namespace GpsConsole

section
variable {ι κ : Type}

/-! ## What a run puts out -/

def Action.accepted? : Action ι κ → Option (Write ι κ)
  | .accepted w => some w
  | _ => none

/-- The bytes given to the UART, if there are any. -/
def Action.transmit? : Action ι κ → Option (Option ι × Bytes)
  | .transmit app bytes => if bytes = [] then none else some (app, bytes)
  | _ => none

def Action.callback? : Action ι κ → Option (ι × κ × Nat)
  | .callback app cb written => some (app, cb, written)
  | _ => none

def accepted (os : List (Action ι κ)) : List (Write ι κ) := os.filterMap Action.accepted?

def transmits (os : List (Action ι κ)) : List (Option ι × Bytes) := os.filterMap Action.transmit?

def written (os : List (Action ι κ)) : List (Option ι × Bytes) := (transmits os).filter (·.1.isSome)

def callbacks (os : List (Action ι κ)) : List (ι × κ × Nat) := os.filterMap Action.callback?

/-- The transmissions of these bytes of a write. -/
def Write.parts (w : Write ι κ) (data : Bytes) : List (Option ι × Bytes) :=
  (chunks writeBufLen data).map (some w.app, ·)

/-- The callback that says it is written. -/
def Write.completion (w : Write ι κ) : Option (ι × κ × Nat) := w.callback.map (w.app, ·, w.data.length)

/-- A callback comes after the last byte of its write, and with its length. -/
def AfterLast (os : List (Action ι κ)) : Action ι κ → Prop
  | .callback app cb length => ∃ w ∈ accepted os, w.completion = some (app, cb, length) ∧
      w.data <:+ (written os).flatMap (·.2)
  | _ => True

/-- What has been put out is of the writes that were served, in full, and of
`sent`, the first bytes of the one that is. -/
structure Accounts (os : List (Action ι κ)) (t : Server (Write ι κ)) (sent : Bytes) : Prop where
  accepted : (accepted os).Perm t.jobs
  written : written os = t.served.flatMap (fun w => w.parts w.data) ++ t.serving.toList.flatMap (·.1.parts sent)
  callbacks : callbacks os = t.served.filterMap Write.completion
  sent : ∀ p ∈ t.serving, sent <+: p.1.data
  afterLast : Throughout AfterLast os

/-! ## The driver as a server -/

/-- The app has a write of which these bytes are not sent. -/
structure Holds (app : App κ) (w : Write ι κ) (unsent : Bytes) : Prop where
  len : app.writeLen = w.data.length
  callback : app.writeCallback = w.callback
  remaining : app.writeRemaining = unsent.length
  buffer : unsent ≠ [] → ∃ slice, app.writeBuffer = some slice ∧ unsent <:+ slice

/-- These writes are pending, and no others; an app without a write has nothing to send. -/
structure Waiting (s : Console ι κ) (ws : List (Write ι κ)) : Prop where
  nonempty : ∀ w ∈ ws, w.data ≠ []
  pending : ∀ w ∈ ws, (s.apps w.app).pendingWrite = true
  holds : ∀ w ∈ ws, Holds (s.apps w.app) w w.data
  only : ∀ i, (s.apps i).pendingWrite = true → ∃ w ∈ ws, w.app = i
  done : ∀ i, s.inProgress ≠ some i → (s.apps i).pendingWrite = false → (s.apps i).writeRemaining = 0

structure Serving (s : Console ι κ) (w : Write ι κ) (ws : List (Write ι κ)) (sent unsent : Bytes) : Prop where
  inProgress : s.inProgress = some w.app
  txBuffer : s.txBuffer = none
  transmitting : s.transmitting.isSome = true
  data : w.data = sent ++ unsent
  whole : unsent ≠ [] → writeBufLen ∣ sent.length
  holds : Holds (s.apps w.app) w unsent
  waiting : Waiting s ws
  apart : ((w :: ws).map Write.app).Nodup

/-- The driver serves no write; it may transmit a byte of `putc`. -/
structure Idle (s : Console ι κ) : Prop where
  inProgress : s.inProgress = none
  buffer : s.txBuffer.isNone = s.transmitting.isSome
  waiting : Waiting s []

inductive Simulates (s : Console ι κ) : Server (Write ι κ) → Bytes → Prop
  | idle {served} : Idle s → Simulates s ⟨served, none⟩ []
  | serving {served w ws sent unsent} : Serving s w ws sent unsent → Simulates s ⟨served, some (w, ws)⟩ sent

def Invariant (os : List (Action ι κ)) (s : Console ι κ) : Prop :=
  ∃ t sent, Simulates s t sent ∧ Accounts os t sent

/-- The bytes that an app has still to send. -/
def App.unsent (app : App κ) : Option Bytes :=
  app.writeBuffer.map fun slice => slice.drop (slice.length - app.writeRemaining)

/-- The step loses no write: a buffer is not swapped for one that ends in other
bytes while some are to be sent; a write is not accepted while another one of
its app is outstanding, nor one without bytes while another one is served, nor
one with bytes while a byte of `putc` is transmitted. -/
def Kept (s : Console ι κ) : Event ι κ → Prop
  | .allow i slice => (s.apps i).writeRemaining = 0 ∨ ∃ new ∈ slice, (s.apps i).writeRemaining ≤ new.length ∧
      { s.apps i with writeBuffer := some new }.unsent = (s.apps i).unsent
  | .subscribe i _ => ∀ slice ∈ (s.apps i).writeBuffer, s.inProgress ≠ some i ∧ (s.apps i).pendingWrite = false ∧
      (slice = [] → s.inProgress = none) ∧ (slice ≠ [] → s.inProgress = none → s.txBuffer.isSome = true)
  | _ => True

/-! ## What has been put out -/

section
variable {os o : List (Action ι κ)} {t t' : Server (Write ι κ)} {w : Write ι κ} {sent unsent : Bytes}

theorem Write.parts_nil : w.parts [] = [] := by rw [parts, chunks_nil, List.map_nil]

theorem Write.flatMap_parts (data : Bytes) : (w.parts data).flatMap (·.2) = data := by
  rw [parts, List.flatMap_map, List.flatMap_id']
  exact flatten_chunks (by decide)

theorem Write.parts_append (hwhole : writeBufLen ∣ sent.length) : w.parts (sent ++ unsent.take writeBufLen) =
    w.parts sent ++ if unsent.take writeBufLen = [] then [] else [(some w.app, unsent.take writeBufLen)] := by
  split
  · next h => rw [h, List.append_nil, List.append_nil]
  · next h =>
    have hle : (unsent.take writeBufLen).length ≤ writeBufLen := by
      rw [List.length_take]
      exact Nat.min_le_left ..
    rw [parts, chunks_append (by decide) hwhole, chunks_of_le (by decide) h hle, List.map_append, parts]
    rfl

@[simp] theorem accepted_append : accepted (os ++ o) = accepted os ++ accepted o := List.filterMap_append

@[simp] theorem callbacks_append : callbacks (os ++ o) = callbacks os ++ callbacks o := List.filterMap_append

theorem transmits_append : transmits (os ++ o) = transmits os ++ transmits o := List.filterMap_append

@[simp] theorem written_append : written (os ++ o) = written os ++ written o := by
  rw [written, transmits_append, List.filter_append]
  rfl

@[simp] theorem written_accepted : written [.accepted w] = [] := rfl

theorem written_transmit {bytes : Bytes} :
    written [(.transmit (some w.app) bytes : Action ι κ)] = if bytes = [] then [] else [(some w.app, bytes)] := by
  by_cases h : bytes = [] <;> simp [written, transmits, Action.transmit?, h]

theorem transmits_own {i : ι} {bytes : Bytes} :
    transmits [(.transmit (some i) bytes : Action ι κ)] = written [(.transmit (some i) bytes : Action ι κ)] := by
  by_cases h : bytes = [] <;> simp [written, transmits, Action.transmit?, h]

@[simp] theorem written_byte {bytes : Bytes} : written [(.transmit none bytes : Action ι κ)] = [] := by
  by_cases h : bytes = [] <;> simp [written, transmits, Action.transmit?, h]

section
variable {cb : Option κ} {i : ι} {length : Nat}

@[simp] theorem accepted_callback : accepted (cb.map fun cb => (.callback i cb length : Action ι κ)).toList = [] := by
  cases cb <;> rfl

theorem callbacks_callback : callbacks (cb.map fun cb => (.callback i cb length : Action ι κ)).toList =
    (cb.map (i, ·, length)).toList := by
  cases cb <;> rfl

@[simp] theorem written_callback : written (cb.map fun cb => (.callback i cb length : Action ι κ)).toList = [] := by
  cases cb <;> rfl

end

theorem Accounts.nil : Accounts ([] : List (Action ι κ)) .empty [] where
  accepted := .refl _
  written := rfl
  callbacks := rfl
  sent p hp := by cases hp
  afterLast := .nil

theorem Accounts.accept (h : Accounts os t sent) (hsent : t.serving = none → sent = []) :
    Accounts (os ++ [.accepted w]) (t.submit w) sent := by
  obtain ⟨served, serving⟩ := t
  refine ⟨?_, ?_, ?_, ?_, h.afterLast.append (.singleton trivial)⟩
  · rw [accepted_append]
    exact (h.accepted.append_right [w]).trans Server.jobs_submit.symm
  · rw [written_append, h.written, written_accepted, List.append_nil]
    cases serving with
    | none => simp [Server.submit, hsent rfl, Write.parts_nil]
    | some p => rfl
  · rw [callbacks_append, h.callbacks]
    exact List.append_nil _
  · cases serving with
    | none =>
      rintro p ⟨⟩
      rw [hsent rfl]
      exact List.nil_prefix
    | some p =>
      rintro q ⟨⟩
      exact h.sent p rfl

theorem Accounts.transmit {served ws} (h : Accounts os ⟨served, some (w, ws)⟩ sent)
    (hdata : w.data = sent ++ unsent) (hwhole : writeBufLen ∣ sent.length) :
    Accounts (os ++ [.transmit (some w.app) (unsent.take writeBufLen)]) ⟨served, some (w, ws)⟩
      (sent ++ unsent.take writeBufLen) := by
  refine ⟨?_, ?_, ?_, ?_, h.afterLast.append (.singleton trivial)⟩
  · rw [accepted_append]
    exact (List.append_nil _).symm ▸ h.accepted
  · rw [written_append, h.written, written_transmit]
    simp only [Option.toList_some, List.flatMap_singleton, List.append_assoc, Write.parts_append hwhole]
  · rw [callbacks_append, h.callbacks]
    exact List.append_nil _
  · rintro p ⟨⟩
    rw [hdata]
    exact (List.prefix_append_right_inj sent).mpr (List.take_prefix ..)

/-- The byte of a `putc`. -/
theorem Accounts.byte {bytes : Bytes} (h : Accounts os t sent) : Accounts (os ++ [.transmit none bytes]) t sent := by
  refine ⟨?_, ?_, ?_, h.sent, h.afterLast.append (.singleton trivial)⟩
  · rw [accepted_append]
    exact (List.append_nil _).symm ▸ h.accepted
  · rw [written_append, h.written, written_byte, List.append_nil]
  · rw [callbacks_append, h.callbacks]
    exact List.append_nil _

theorem Accounts.whole {served ws} (h : Accounts os ⟨served, some (w, ws)⟩ w.data) :
    w.data <:+ (GpsConsole.written os).flatMap (·.2) := by
  rw [h.written, List.flatMap_append]
  refine List.IsSuffix.trans ?_ (List.suffix_append ..)
  simpa only [Option.toList_some, List.flatMap_singleton, Write.flatMap_parts] using List.suffix_rfl

theorem Accounts.finish (h : Accounts os t w.data) (hfinish : Server.Finish t w t') :
    Accounts (os ++ (w.callback.map fun cb => .callback w.app cb w.data.length).toList) t' [] := by
  have hjobs := hfinish.jobs
  obtain ⟨ws, hserving⟩ : ∃ ws, t = ⟨t.served, some (w, ws)⟩ := by cases hfinish <;> exact ⟨_, rfl⟩
  have hserved : t'.served = t.served ++ [w] := by cases hfinish <;> rfl
  have haccepted : w ∈ GpsConsole.accepted os := by
    refine h.accepted.mem_iff.mpr (List.mem_append_right _ ?_)
    rw [hserving]
    exact List.mem_cons_self
  refine ⟨?_, ?_, ?_, ?_, h.afterLast.append ?_⟩
  · rw [accepted_append, accepted_callback, List.append_nil]
    exact h.accepted.trans hjobs.symm
  · rw [written_append, written_callback, List.append_nil, h.written, hserving, hserved]
    simp [Write.parts_nil]
  · rw [callbacks_append, h.callbacks, hserved, List.filterMap_append]
    rw [callbacks_callback, List.filterMap_cons, List.filterMap_nil, Write.completion]
    cases w.callback <;> rfl
  · exact fun p _ => List.nil_prefix
  · cases hcb : w.callback with
    | none => exact .nil
    | some cb =>
      refine .singleton ⟨w, ?_, by rw [Write.completion, hcb, Option.map_some], ?_⟩
      · rwa [List.append_nil]
      · rw [List.append_nil]
        rw [hserving] at h
        exact h.whole

end

end

/-! ## What the driver does -/

section
variable {ι κ : Type} {app : App κ} {w : Write ι κ} {unsent : Bytes}

theorem App.unsent_eq {slice : Bytes} (hbuffer : app.writeBuffer = some slice)
    (hremaining : app.writeRemaining = unsent.length) (h : unsent <:+ slice) : app.unsent = some unsent := by
  rw [App.unsent, hbuffer, Option.map_some, hremaining, ← List.suffix_iff_eq_drop.mp h]

theorem Holds.allow {slice : Option Bytes} (h : Holds app w unsent)
    (hkept : app.writeRemaining = 0 ∨ ∃ new ∈ slice, app.writeRemaining ≤ new.length ∧
      { app with writeBuffer := some new }.unsent = app.unsent) :
    Holds { app with writeBuffer := slice } w unsent := by
  refine ⟨h.len, h.callback, h.remaining, fun hunsent => ?_⟩
  rcases hkept with hzero | ⟨new, hnew, hle, heq⟩
  · rw [h.remaining, List.length_eq_zero_iff] at hzero
    exact absurd hzero hunsent
  · obtain ⟨old, hold, hsuffix⟩ := h.buffer hunsent
    rw [App.unsent_eq hold h.remaining hsuffix, App.unsent, Option.map_some] at heq
    refine ⟨new, hnew, ?_⟩
    rw [← Option.some.inj heq]
    exact List.drop_suffix ..

theorem Holds.pending {pending : Bool} (h : Holds app w unsent) :
    Holds { app with pendingWrite := pending } w unsent := ⟨h.len, h.callback, h.remaining, h.buffer⟩

theorem Holds.schedule {s : Console ι κ} {written : Nat} (h : Holds (s.apps w.app) w unsent) :
    s.schedule w.app written = (w.callback.map fun cb => .callback w.app cb written).toList := by
  rw [Console.schedule, h.callback]

theorem Serving.apart_of_mem {s : Console ι κ} {ws : List (Write ι κ)} {sent : Bytes}
    (h : Serving s w ws sent unsent) {w' : Write ι κ} (hw' : w' ∈ ws) : w'.app ≠ w.app := by
  have hnodup := List.nodup_cons.mp h.apart
  exact fun heq => hnodup.1 (heq ▸ List.mem_map_of_mem hw')

theorem Serving.not_pending {s : Console ι κ} {ws : List (Write ι κ)} {sent : Bytes}
    (h : Serving s w ws sent unsent) : (s.apps w.app).pendingWrite = false := by
  rw [← Bool.not_eq_true]
  intro hpending
  obtain ⟨w', hw', heq⟩ := h.waiting.only _ hpending
  exact h.apart_of_mem hw' heq

theorem Idle.not_pending {s : Console ι κ} {i : ι} (h : Idle s) : (s.apps i).pendingWrite = false := by
  rw [← Bool.not_eq_true]
  intro hpending
  obtain ⟨w, hw, -⟩ := h.waiting.only i hpending
  exact List.not_mem_nil hw

end

section
variable {ι κ : Type} [DecidableEq ι] {s s' : Console ι κ} {i j : ι} {app : App κ} {w : Write ι κ}
  {ws : List (Write ι κ)} {unsent : Bytes} {buffer : Mem UInt8}

/-- The UART transmits for an app. -/
def Console.start (s : Console ι κ) (i : ι) (app : App κ) (buffer : Mem UInt8) : Console ι κ :=
  { s.put i app with inProgress := some i, txBuffer := none, transmitting := some buffer }

theorem Console.send_start (hprogress : s.inProgress = none) (hbuffer : s.txBuffer = some buffer)
    (hlen : (s.apps i).writeLen = w.data.length) (hcallback : (s.apps i).writeCallback = w.callback)
    (hremaining : (s.apps i).writeRemaining = unsent.length) {slice : Bytes} (hslice : unsent <:+ slice) :
    ∃ app buffer, s.send i slice = some (s.start i app buffer, [.transmit (some i) (unsent.take writeBufLen)]) ∧
      app.pendingWrite = (s.apps i).pendingWrite ∧ Holds app w (unsent.drop writeBufLen) := by
  have hle : ¬ slice.length < unsent.length := Nat.not_lt.mpr hslice.length_le
  have htake : ∀ n, n = (unsent.take writeBufLen).length →
      (buffer.copy 0 (unsent.take writeBufLen)).read 0 n = unsent.take writeBufLen := by
    rintro n rfl
    exact Mem.read_copy ..
  simp only [Console.send, hprogress, Option.isNone_none, if_true, hbuffer, hremaining, hle, if_false,
    ← List.suffix_iff_eq_drop.mp hslice]
  by_cases hlong : writeBufLen < unsent.length
  · simp only [hlong, if_true]
    rw [htake _ (by rw [List.length_take]; omega)]
    exact ⟨_, _, rfl, rfl, hlen, hcallback, (List.length_drop ..).symm,
      fun _ => ⟨slice, rfl, (List.drop_suffix ..).trans hslice⟩⟩
  · simp only [hlong, if_false]
    rw [htake _ (by rw [List.length_take]; omega), List.drop_eq_nil_of_le (Nat.not_lt.mp hlong)]
    exact ⟨_, _, rfl, rfl, hlen, hcallback, rfl, by simp⟩

theorem Console.sendContinue_active (hprogress : s.inProgress = none) (hbuffer : s.txBuffer = some buffer)
    (hholds : Holds (s.apps i) w unsent) (hunsent : unsent ≠ []) :
    ∃ app buffer, s.sendContinue i =
        some (s.start i app buffer, [.transmit (some i) (unsent.take writeBufLen)], .active) ∧
      app.pendingWrite = (s.apps i).pendingWrite ∧ Holds app w (unsent.drop writeBufLen) := by
  obtain ⟨slice, hslice, hsuffix⟩ := hholds.buffer hunsent
  have hpos : 0 < (s.apps i).writeRemaining := by
    rw [hholds.remaining]
    exact List.length_pos_iff.mpr hunsent
  obtain ⟨app, buffer', hsend, hpending, hholds'⟩ :=
    Console.send_start (s := s.put i { s.apps i with writeBuffer := none }) (i := i) (w := w)
      hprogress hbuffer (by rw [put_apps]; exact hholds.len) (by rw [put_apps]; exact hholds.callback)
      (by rw [put_apps]; exact hholds.remaining) hsuffix
  refine ⟨app, buffer', ?_, by rw [hpending, put_apps], hholds'⟩
  simp only [Console.sendContinue, hpos, if_true, hslice, hsend, Option.map_some, Console.start, Console.put_put]

theorem Console.startPending_start {order : List ι} (hprogress : s.inProgress = none)
    (hbuffer : s.txBuffer = some buffer) (hwaiting : Waiting s ws) (hws : ws ≠ [])
    (horder : ∀ w ∈ ws, w.app ∈ order) :
    ∃ w ∈ ws, ∃ app buffer, s.startPending order =
        some (s.start w.app app buffer, [.transmit (some w.app) (w.data.take writeBufLen)]) ∧
      app.pendingWrite = false ∧ Holds app w (w.data.drop writeBufLen) := by
  induction order with
  | nil =>
    obtain ⟨w, hw⟩ := List.exists_mem_of_ne_nil ws hws
    exact absurd (horder w hw) List.not_mem_nil
  | cons i is ih =>
    by_cases hpending : (s.apps i).pendingWrite = true
    · obtain ⟨w, hw, rfl⟩ := hwaiting.only i hpending
      obtain ⟨app, buffer', hcont, hpend, hholds⟩ :=
        Console.sendContinue_active (s := s.put w.app { s.apps w.app with pendingWrite := false }) (w := w)
          hprogress hbuffer (by rw [put_apps]; exact (hwaiting.holds w hw).pending) (hwaiting.nonempty w hw)
      refine ⟨w, hw, app, buffer', ?_, by rw [hpend, put_apps], hholds⟩
      simp only [Console.startPending, hpending, if_true, hcont, Option.bind_some, Console.start, Console.put_put]
    · have hmem : ∀ w ∈ ws, w.app ∈ is := fun w hw => by
        rcases List.mem_cons.mp (horder w hw) with rfl | h
        · exact absurd (hwaiting.pending w hw) hpending
        · exact h
      obtain ⟨w, hw, app, buffer', hstart, h⟩ := ih hmem
      exact ⟨w, hw, app, buffer', by rw [Console.startPending, if_neg hpending, hstart], h⟩

theorem Console.startPending_none {order : List ι} (hwaiting : Waiting s []) :
    s.startPending order = some (s, []) := by
  induction order with
  | nil => rfl
  | cons i is ih =>
    rw [Console.startPending, if_neg, ih]
    intro hpending
    obtain ⟨w, hw, -⟩ := hwaiting.only i hpending
    exact List.not_mem_nil hw

theorem Waiting.start {ws' : List (Write ι κ)} (h : Waiting s ws) (hws : ∀ w, w ∈ ws' ↔ w ∈ ws ∧ w.app ≠ i)
    (hprogress : ∀ j, s.inProgress = some j → j = i) (happ : app.pendingWrite = false) :
    Waiting (s.start i app buffer) ws' := by
  have happs : ∀ j, j ≠ i → (s.start i app buffer).apps j = s.apps j := fun j hj => Console.put_apps_of_ne hj
  refine ⟨fun w hw => ?_, fun w hw => ?_, fun w hw => ?_, fun j hj => ?_, fun j hj hpending => ?_⟩
  · exact h.nonempty w ((hws w).mp hw).1
  · rw [happs _ ((hws w).mp hw).2]
    exact h.pending w ((hws w).mp hw).1
  · rw [happs _ ((hws w).mp hw).2]
    exact h.holds w ((hws w).mp hw).1
  · have hne : j ≠ i := by
      rintro rfl
      rw [show (s.start j app buffer).apps j = app from Console.put_apps, happ] at hj
      cases hj
    rw [happs j hne] at hj
    obtain ⟨w, hw, rfl⟩ := h.only j hj
    exact ⟨w, (hws w).mpr ⟨hw, hne⟩, rfl⟩
  · have hne : j ≠ i := fun heq => hj (congrArg some heq.symm)
    rw [happs j hne] at hpending ⊢
    exact h.done j (fun heq => hne (hprogress j heq)) hpending

theorem Serving.start {sent : Bytes} (hdata : w.data = sent ++ unsent)
    (hwhole : unsent ≠ [] → writeBufLen ∣ sent.length) (hholds : Holds app w unsent)
    (hwaiting : Waiting (s.start w.app app buffer) ws) (hapart : ((w :: ws).map Write.app).Nodup) :
    Serving (s.start w.app app buffer) w ws sent unsent where
  inProgress := rfl
  txBuffer := rfl
  transmitting := rfl
  data := hdata
  whole := hwhole
  holds := by
    rw [show (s.start w.app app buffer).apps w.app = app from Console.put_apps]
    exact hholds
  waiting := hwaiting
  apart := hapart

theorem dvd_sent (sent : Bytes) (hwhole : writeBufLen ∣ sent.length) (hrest : unsent.drop writeBufLen ≠ []) :
    writeBufLen ∣ (sent ++ unsent.take writeBufLen).length := by
  have hlong : writeBufLen < unsent.length := Nat.lt_of_not_le fun h => hrest (List.drop_eq_nil_of_le h)
  rw [List.length_append, List.length_take, Nat.min_eq_left (Nat.le_of_lt hlong)]
  exact Nat.dvd_add hwhole (Nat.dvd_refl _)

section
variable {order : List ι} {sent : Bytes}

variable (order) in
theorem Serving.complete_more (h : Serving s w ws sent unsent) (hunsent : unsent ≠ []) :
    ∃ s', s.transmitComplete order = some (s', [.transmit (some w.app) (unsent.take writeBufLen)]) ∧
      Serving s' w ws (sent ++ unsent.take writeBufLen) (unsent.drop writeBufLen) := by
  obtain ⟨buffer, hbuffer⟩ := Option.isSome_iff_exists.mp h.transmitting
  obtain ⟨app, buffer', hcont, hpending, hholds⟩ := Console.sendContinue_active
    (s := { s with txBuffer := some buffer, transmitting := none, inProgress := none }) rfl rfl h.holds hunsent
  have hwaiting : Waiting (s.start w.app app buffer') ws := by
    refine h.waiting.start (fun w' => ⟨fun hw' => ⟨hw', h.apart_of_mem hw'⟩, And.left⟩) (fun j hj => ?_)
      (hpending.trans h.not_pending)
    rw [h.inProgress] at hj
    exact (Option.some.inj hj).symm
  refine ⟨s.start w.app app buffer', ?_, .start ?_ (dvd_sent sent (h.whole hunsent)) hholds hwaiting h.apart⟩
  · simp only [Console.transmitComplete, hbuffer, Console.completeInProgress, h.inProgress, Console.proceed, hcont,
      Option.map_some, Option.bind_some]
    rfl
  · rw [List.append_assoc, List.take_append_drop, h.data]

theorem Serving.completeInProgress (h : Serving s w ws sent []) (buffer : Mem UInt8) :
    ∃ s', Console.completeInProgress { s with txBuffer := some buffer, transmitting := none } =
        some (s', (w.callback.map fun cb => .callback w.app cb w.data.length).toList) ∧
      s'.inProgress = none ∧ s'.txBuffer = some buffer ∧ s'.transmitting = none ∧ Waiting s' ws := by
  have hremaining : (s.apps w.app).writeRemaining = 0 := h.holds.remaining
  let app := { s.apps w.app with writeLen := 0, writeRemaining := 0 }
  let s' : Console ι κ :=
    { s.put w.app app with txBuffer := some buffer, transmitting := none, inProgress := none }
  have happs : ∀ j, j ≠ w.app → s'.apps j = s.apps j := fun j hj => Console.put_apps_of_ne hj
  have happ : s'.apps w.app = app := Console.put_apps
  refine ⟨s', ?_, rfl, rfl, rfl, h.waiting.nonempty, fun w' hw' => ?_, fun w' hw' => ?_, fun j hj => ?_,
    fun j _ hj => ?_⟩
  · simp only [Console.completeInProgress, h.inProgress, Console.proceed, Console.sendContinue, hremaining,
      Nat.lt_irrefl, if_false, Option.map_some, List.nil_append, h.holds.len]
    rw [← h.holds.schedule]
    rfl
  · rw [happs _ (h.apart_of_mem hw')]
    exact h.waiting.pending w' hw'
  · rw [happs _ (h.apart_of_mem hw')]
    exact h.waiting.holds w' hw'
  · by_cases hne : j = w.app
    · rw [hne, happ, h.not_pending] at hj
      cases hj
    · rw [happs j hne] at hj
      exact h.waiting.only j hj
  · by_cases hne : j = w.app
    · rw [hne, happ]
    · rw [happs j hne] at hj ⊢
      refine h.waiting.done j (fun heq => hne ?_) hj
      rw [h.inProgress] at heq
      exact (Option.some.inj heq).symm

variable (order) in
theorem Serving.complete_last (h : Serving s w [] sent []) :
    ∃ s', s.transmitComplete order =
        some (s', (w.callback.map fun cb => .callback w.app cb w.data.length).toList) ∧
      Idle s' ∧ s'.transmitting = none := by
  obtain ⟨buffer, hbuffer⟩ := Option.isSome_iff_exists.mp h.transmitting
  obtain ⟨s', hcomplete, hprogress, htx, htransmitting, hwaiting⟩ := h.completeInProgress buffer
  refine ⟨s', ?_, ⟨hprogress, by rw [htx, htransmitting]; rfl, hwaiting⟩, htransmitting⟩
  simp only [Console.transmitComplete, hbuffer, hcomplete, Option.bind_some, hprogress, Option.isNone_none, if_true,
    Console.startPending_none hwaiting, Option.map_some, List.append_nil]

theorem Serving.complete_next (h : Serving s w ws sent []) (hws : ws ≠ []) (horder : ∀ i, i ∈ order) :
    ∃ s' ws₁ w' ws₂, ws = ws₁ ++ w' :: ws₂ ∧ s.transmitComplete order =
        some (s', (w.callback.map fun cb => .callback w.app cb w.data.length).toList ++
          [.transmit (some w'.app) (w'.data.take writeBufLen)]) ∧
      Serving s' w' (ws₁ ++ ws₂) (w'.data.take writeBufLen) (w'.data.drop writeBufLen) := by
  obtain ⟨buffer, hbuffer⟩ := Option.isSome_iff_exists.mp h.transmitting
  obtain ⟨s', hcomplete, hprogress, htx, -, hwaiting⟩ := h.completeInProgress buffer
  obtain ⟨w', hw', app, buffer', hstart, hpending, hholds⟩ :=
    Console.startPending_start hprogress htx hwaiting hws fun w _ => horder w.app
  obtain ⟨ws₁, ws₂, rfl⟩ := List.append_of_mem hw'
  have hperm : (w' :: (ws₁ ++ ws₂)).Perm (ws₁ ++ w' :: ws₂) := List.perm_middle.symm
  have hapart : ((w' :: (ws₁ ++ ws₂)).map Write.app).Nodup :=
    (hperm.map Write.app).nodup_iff.mpr (List.nodup_cons.mp h.apart).2
  have hwaiting' : Waiting (s'.start w'.app app buffer') (ws₁ ++ ws₂) := by
    refine hwaiting.start (fun v => ?_) (fun j hj => by rw [hprogress] at hj; cases hj) hpending
    rw [← hperm.mem_iff, List.mem_cons]
    constructor
    · intro hv
      exact ⟨.inr hv, fun heq => (List.nodup_cons.mp hapart).1 (heq ▸ List.mem_map_of_mem hv)⟩
    · rintro ⟨rfl | hv, hne⟩
      · exact absurd rfl hne
      · exact hv
  refine ⟨s'.start w'.app app buffer', ws₁, w', ws₂, rfl, ?_,
    .start (List.take_append_drop ..).symm (fun hrest => ?_) hholds hwaiting' hapart⟩
  · simp only [Console.transmitComplete, hbuffer, hcomplete, Option.bind_some, hprogress, Option.isNone_none, if_true,
      hstart, Option.map_some]
  · exact dvd_sent [] (Nat.dvd_zero _) hrest

variable (order) in
/-- A byte of `putc` is transmitted. -/
theorem Idle.complete (h : Idle s) (htransmitting : s.transmitting = some buffer) :
    ∃ s', s.transmitComplete order = some (s', []) ∧ Idle s' ∧ s'.transmitting = none := by
  have hwaiting : Waiting { s with txBuffer := some buffer, transmitting := none, inProgress := none } [] :=
    ⟨h.waiting.nonempty, h.waiting.pending, h.waiting.holds, h.waiting.only,
      fun j _ => h.waiting.done j (by rw [h.inProgress]; exact Option.some_ne_none j |>.symm)⟩
  refine ⟨_, ?_, ⟨rfl, rfl, hwaiting⟩, rfl⟩
  simp only [Console.transmitComplete, htransmitting, Console.completeInProgress, h.inProgress, Option.bind_some,
    Option.isNone_none, if_true, Console.startPending_none hwaiting, Option.map_some, List.append_nil]

end

end

end GpsConsole

end Signpost
