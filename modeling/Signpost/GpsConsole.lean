/-
The console driver of the kernel (`gps_console.rs`): the apps write through one
UART, from one buffer that the driver has while nothing is transmitted.

An app's grant can be entered, and apps do not exit. A slice is its bytes, which
the app leaves alone while they are written. What apps read is left out. Where
the driver panics there is no step.

An event is a system call of an app or the end of a transmission, and puts out
what the driver has accepted, transmits and calls back. The two modules that
follow say what holds of these outputs over a run.
-/
import Mathlib.Logic.Function.Basic
import Signpost.Packet

namespace Signpost

open Lib

namespace GpsConsole

/-- The length of `WRITE_BUF`. -/
def writeBufLen : Nat := 512

/-- `isize::from(ReturnCode::FAIL) as usize` -/
def fail : Nat := 2 ^ 32 - 1

/-- `App`, as far as it writes. -/
structure App (κ : Type) where
  writeCallback : Option κ
  writeBuffer : Option Bytes
  writeLen : Nat
  writeRemaining : Nat
  pendingWrite : Bool

/-- `impl Default for App` -/
def App.default {κ : Type} : App κ := ⟨none, none, 0, 0, false⟩

structure Console (ι κ : Type) where
  apps : ι → App κ
  inProgress : Option ι
  txBuffer : Option (Mem UInt8)
  /-- The buffer that the UART has. -/
  transmitting : Option (Mem UInt8)

/-- A write that `subscribe` has answered with `SUCCESS`. -/
structure Write (ι κ : Type) where
  app : ι
  data : Bytes
  callback : Option κ

inductive Action (ι κ : Type)
  | accepted (w : Write ι κ)
  /-- The UART is given these bytes, of an app's write or of `putc`. -/
  | transmit (app : Option ι) (bytes : Bytes)
  | callback (app : ι) (callback : κ) (written : Nat)

inductive Event (ι κ : Type)
  /-- `allow` with number 1. -/
  | allow (app : ι) (slice : Option Bytes)
  /-- `subscribe` with number 1. -/
  | subscribe (app : ι) (callback : Option κ)
  /-- `command` with number 1. -/
  | putc (arg : UInt8)
  | transmitComplete

/-- What `send_continue` returns: `Ok`, with whether the send is still active,
or an error. -/
inductive Continued
  | active
  | completed
  | failed
  deriving DecidableEq

variable {ι κ : Type} [DecidableEq ι]

namespace Console

def boot : Console ι κ := ⟨fun _ => .default, none, some fun _ => 0, none⟩

def put (s : Console ι κ) (i : ι) (app : App κ) : Console ι κ := { s with apps := Function.update s.apps i app }

section
variable {s : Console ι κ} {i j : ι} {app : App κ}

@[simp] theorem put_apps : (s.put i app).apps i = app := Function.update_self ..

theorem put_apps_of_ne (h : j ≠ i) : (s.put i app).apps j = s.apps j := Function.update_of_ne h ..

@[simp] theorem put_inProgress : (s.put i app).inProgress = s.inProgress := rfl

@[simp] theorem put_txBuffer : (s.put i app).txBuffer = s.txBuffer := rfl

@[simp] theorem put_transmitting : (s.put i app).transmitting = s.transmitting := rfl

@[simp] theorem put_put {app' : App κ} : (s.put i app).put i app' = s.put i app' := by
  simp only [put, Function.update_idem]

end

section
variable (s : Console ι κ) (i : ι)

def send (slice : Bytes) : Option (Console ι κ × List (Action ι κ)) :=
  let app := s.apps i
  if s.inProgress.isNone then
    let s := { s with inProgress := some i }
    match s.txBuffer with
    | some buffer =>
      if slice.length < app.writeRemaining then none
      else
        let unsent := slice.drop (slice.length - app.writeRemaining)
        let buffer := buffer.copy 0 (unsent.take writeBufLen)
        let (transactionLen, app) :=
          if writeBufLen < app.writeRemaining then
            (writeBufLen, { app with
              writeRemaining := app.writeRemaining - writeBufLen, writeBuffer := some slice })
          else (app.writeRemaining, { app with writeRemaining := 0 })
        some ({ s.put i app with txBuffer := none, transmitting := some buffer },
          [.transmit (some i) (buffer.read 0 transactionLen)])
    -- The slice is dropped.
    | none => some (s, [])
  else some (s.put i { app with pendingWrite := true, writeBuffer := some slice }, [])

def sendNew (callback : Option κ) : Option (Console ι κ × List (Action ι κ)) :=
  let app := s.apps i
  match app.writeBuffer with
  | some slice =>
    let s := s.put i { app with
      writeBuffer := none, writeLen := slice.length, writeRemaining := slice.length, writeCallback := callback }
    (s.send i slice).map fun r => (r.1, .accepted ⟨i, slice, callback⟩ :: r.2)
  -- `EBUSY`
  | none => some (s, [])

def sendContinue : Option (Console ι κ × List (Action ι κ) × Continued) :=
  let app := s.apps i
  if 0 < app.writeRemaining then
    match app.writeBuffer with
    | some slice => ((s.put i { app with writeBuffer := none }).send i slice).map fun r => (r.1, r.2, .active)
    | none => some (s, [], .failed)
  else some (s, [], .completed)

/-- The app's callback is scheduled, if it has one. -/
def schedule (written : Nat) : List (Action ι κ) :=
  ((s.apps i).writeCallback.map fun cb => .callback i cb written).toList

/-- What is done with an error of `send_continue`. -/
def giveUp : Console ι κ × List (Action ι κ) :=
  (s.put i { s.apps i with writeLen := 0, writeRemaining := 0, pendingWrite := false }, s.schedule i fail)

/-- The app whose bytes were transmitted goes on, or is signalled. -/
def proceed : Option (Console ι κ × List (Action ι κ)) :=
  (s.sendContinue i).map fun
    | (s, os, .active) => (s, os)
    | (s, os, .completed) =>
      (s.put i { s.apps i with writeLen := 0 }, os ++ s.schedule i (s.apps i).writeLen)
    | (s, os, .failed) => ((s.giveUp i).1, os ++ (s.giveUp i).2)

end

/-- The loop over the apps with pending writes, until one transmits. -/
def startPending : List ι → Console ι κ → Option (Console ι κ × List (Action ι κ))
  | [], s => some (s, [])
  | i :: is, s =>
    if (s.apps i).pendingWrite then
      ((s.put i { s.apps i with pendingWrite := false }).sendContinue i).bind fun
        | (s, os, .active) => some (s, os)
        | (s, os, .completed) => (startPending is s).map fun r => (r.1, os ++ r.2)
        | (s, os, .failed) => (startPending is (s.giveUp i).1).map fun r => (r.1, os ++ (s.giveUp i).2 ++ r.2)
    else startPending is s

/-- The part of `transmit_complete` for the app that is in progress. -/
def completeInProgress (s : Console ι κ) : Option (Console ι κ × List (Action ι κ)) :=
  match s.inProgress with
  | some i => { s with inProgress := none }.proceed i
  | none => some (s, [])

/-- `transmit_complete`. The iterator over grants visits the apps in `order`. -/
def transmitComplete (order : List ι) (s : Console ι κ) : Option (Console ι κ × List (Action ι κ)) :=
  match s.transmitting with
  | some buffer =>
    (completeInProgress { s with txBuffer := some buffer, transmitting := none }).bind fun r =>
      if r.1.inProgress.isNone then (startPending order r.1).map fun r' => (r'.1, r.2 ++ r'.2) else some r
  -- The UART completes what it transmits.
  | none => none

def step (order : List ι) (s : Console ι κ) : Event ι κ → Option (Console ι κ × List (Action ι κ))
  | .allow i slice => some (s.put i { s.apps i with writeBuffer := slice }, [])
  | .subscribe i callback => s.sendNew i callback
  | .putc arg =>
    match s.txBuffer with
    | some buffer =>
      let buffer := buffer.copy 0 [arg]
      some ({ s with txBuffer := none, transmitting := some buffer }, [.transmit none (buffer.read 0 1)])
    | none => some (s, [])
  | .transmitComplete => s.transmitComplete order

end Console

end GpsConsole

end Signpost
