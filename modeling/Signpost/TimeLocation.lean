/-
Time and location: the controller's copy of the last fix, what it answers the modules
that ask for it and what they make of the answer, and the packet in which it publishes
the fix, as the server reads it.

A `time_t` is a number, with its bytes as a parameter. A coordinate of the packet's
message is in microdegrees, where the server divides by 10^6.

A moment is followed through all of this: the bytes of the answer, the seconds that the module
computes, and the date that the server builds from a two-digit year. That a second later is a second
more is a fact of `Lib.Calendar`.
-/
import Signpost.GpsParse
import Signpost.Lib.BigEndian
import Signpost.Lib.Calendar
import Signpost.Processing

namespace Signpost

open Lib Calendar

namespace TimeLocation

/-! ## The controller -/

/-- `signpost_timelocation_time_t` -/
structure Time where
  year : UInt16
  month : UInt8
  day : UInt8
  hours : UInt8
  minutes : UInt8
  seconds : UInt8
  satelliteCount : UInt8

/-- `signpost_timelocation_location_t` -/
structure Location where
  latitude : UInt32
  longitude : UInt32
  satelliteCount : UInt8

def Time.bytes (t : Time) : Bytes :=
  le16 t.year ++ [t.month, t.day, t.hours, t.minutes, t.seconds, t.satelliteCount]

def Location.bytes (l : Location) : Bytes := le32 l.latitude ++ le32 l.longitude ++ [l.satelliteCount]

/-- `current_time` and `current_location`. -/
structure Current where
  time : Time
  location : Location

/-- `gps_callback` -/
def gpsCallback (gpsData : GpsData) : Current where
  time :=
    { year := UInt16.ofNat (gpsData.year.toNat + 2000)
      month := gpsData.month
      day := gpsData.day
      hours := gpsData.hours
      minutes := gpsData.minutes
      seconds := gpsData.seconds
      satelliteCount := gpsData.satelliteCount }
  location :=
    { latitude := gpsData.latitude
      longitude := gpsData.longitude
      satelliteCount := gpsData.satelliteCount }

/-- What is sent back. -/
inductive Answer
  | response (messageType : UInt8) (payload : Bytes)
  /-- `signpost_api_error_reply_repeating` -/
  | error (rc : Int)
  | nothing

/-- `timelocation_api_callback`, when its response can be sent. -/
def timelocationApiCallback (current : Current) (frameType apiType messageType : UInt8) : Answer :=
  if apiType ≠ timeLocationApiType then .error portEinval
  else if frameType = commandFrame then
    if messageType = timeLocationGetTimeMessage then .response timeLocationGetTimeMessage current.time.bytes
    else if messageType = timeLocationGetLocationMessage then
      .response timeLocationGetLocationMessage current.location.bytes
    else .nothing
  else .nothing

/-- `gps_buf`, as `send_gps_update` publishes it. -/
def Current.gpsBuf (current : Current) : Bytes :=
  let time := current.time
  let location := current.location
  -- That there are four satellites is asked only when there are less than three.
  let fix := if 3 ≤ time.satelliteCount then 0x02 else if 4 ≤ time.satelliteCount then 0x03 else 0x01
  [0x02, time.day, time.month, (time.year - 2000).toUInt8, time.hours, time.minutes, time.seconds] ++
    be32 location.latitude.toNat ++ be32 location.longitude.toNat ++ [fix, time.satelliteCount, 0]

/-! ## The module -/

/-- `mktime`, where the time zone is UTC. -/
def mktime (tm : Tm) : Int := seconds (tm.year + 1900) tm.mon tm.mday tm.hour tm.min tm.sec

/-- A response of the controller with this payload. -/
structure Carries (frame : Parsed) (messageType : UInt8) (payload : Bytes) : Prop where
  frameType : frame.frameType = responseFrame
  apiType : frame.apiType = timeLocationApiType
  messageType : frame.messageType = messageType
  holds : frame.Holds payload

/-! ## The server -/

/-- The message of the device `signpost_gps`. -/
structure GpsMessage where
  latitude : Int
  latitudeDirection : Char
  longitude : Int
  longitudeDirection : Char
  /-- In milliseconds, of which the message has the text. -/
  timestamp : Int
  satelliteCount : Nat
  deriving DecidableEq

/-- `Date.UTC` -/
def dateUTC (year month day hours minutes sec : Int) : Int := seconds year month day hours minutes sec * 1000

/-- The GPS branch of `parse`. Any message type is taken. -/
def parseGps (buf : Bytes) : Option GpsMessage := do
  let _messageType ← readUInt8 buf 0
  let day ← readUInt8 buf 1
  let month ← readUInt8 buf 2
  let year ← readUInt8 buf 3
  let hours ← readUInt8 buf 4
  let minutes ← readUInt8 buf 5
  let sec ← readUInt8 buf 6
  let latitude ← readInt32BE buf 7
  let longitude ← readInt32BE buf 11
  let _fix ← readUInt8 buf 15
  let satelliteCount ← readUInt8 buf 16
  let year := if 80 ≤ year then year + 1900 else year + 2000
  some
    { latitude := if latitude < 0 then latitude * -1 else latitude
      latitudeDirection := if latitude < 0 then 'S' else 'N'
      longitude := if longitude < 0 then longitude * -1 else longitude
      longitudeDirection := if longitude < 0 then 'W' else 'E'
      timestamp := dateUTC year ((month : Int) - 1) day hours minutes sec
      satelliteCount := satelliteCount }

/-! ## A fix at a moment -/

/-- The fields of a fix are those of this moment; the year is counted from 2000. -/
structure Shows (gpsData : GpsData) (m : Moment) : Prop where
  year : (gpsData.year.toNat : Int) + 2000 = m.year
  month : (gpsData.month.toNat : Int) = m.month
  day : (gpsData.day.toNat : Int) = m.day
  hours : (gpsData.hours.toNat : Int) = m.hour
  minutes : (gpsData.minutes.toNat : Int) = m.minute
  seconds : (gpsData.seconds.toNat : Int) = m.second

section
variable {gpsData : GpsData} {m : Moment}

theorem toNat_year (gpsData : GpsData) :
    (UInt16.ofNat (gpsData.year.toNat + 2000)).toNat = gpsData.year.toNat + 2000 := by
  have hyear := gpsData.year.toNat_lt
  exact UInt16.toNat_ofNat_of_lt' (by simp only [UInt16.size]; omega)

theorem year_of_packet (gpsData : GpsData) :
    (UInt16.ofNat (gpsData.year.toNat + 2000) - 2000).toUInt8 = gpsData.year := by
  have hyear := gpsData.year.toNat_lt
  have hle : (2000 : UInt16) ≤ UInt16.ofNat (gpsData.year.toNat + 2000) := by
    rw [UInt16.le_iff_toNat_le, toNat_year]
    exact Nat.le_add_left 2000 _
  apply UInt8.toNat_inj.mp
  rw [UInt16.toNat_toUInt8, UInt16.toNat_sub_of_le _ _ hle, toNat_year]
  change (gpsData.year.toNat + 2000 - 2000) % 256 = _
  omega

theorem Shows.mktime_eq (h : Shows gpsData m) {message : Mem UInt8}
    (hheld : message.read 0 8 = (gpsCallback gpsData).time.bytes) :
    mktime
      { year := (ofLe16 (message 0) (message 1)).toNat - 1900
        mon := (message 2).toNat - 1
        mday := (message 3).toNat
        hour := (message 4).toNat
        min := (message 5).toNat
        sec := (message 6).toNat } = m.epoch ∧ message 7 = gpsData.satelliteCount := by
  have hread : message.read 0 8 = [message 0, message 1, message 2, message 3, message 4, message 5, message 6,
      message 7] := rfl
  rw [hread] at hheld
  simp only [Time.bytes, gpsCallback, le16, List.cons_append, List.nil_append, List.cons.injEq, and_true] at hheld
  obtain ⟨h0, h1, h2, h3, h4, h5, h6, h7⟩ := hheld
  have hyear : ((gpsData.year.toNat + 2000 : Nat) : Int) - 1900 + 1900 = m.year := by
    rw [← h.year, Int.sub_add_cancel]
    rfl
  refine ⟨?_, h7⟩
  rw [h0, h1, ofLe16_le16, h2, h3, h4, h5, h6, toNat_year, mktime, Moment.epoch]
  simp only [hyear, h.month, h.day, h.hours, h.minutes, h.seconds]

theorem ofBe32_int32 (x : Int) : ofBe32 (byteAt x 24) (byteAt x 16) (byteAt x 8) (byteAt x 0) = int32 x := by
  rw [ofBe32_byteAt_bmod, int32]
  norm_num

theorem parseGps_gpsBuf (gpsData : GpsData) : parseGps (gpsCallback gpsData).gpsBuf = some
    { latitude := if int32 gpsData.latitude.toNat < 0 then int32 gpsData.latitude.toNat * -1
        else int32 gpsData.latitude.toNat
      latitudeDirection := if int32 gpsData.latitude.toNat < 0 then 'S' else 'N'
      longitude := if int32 gpsData.longitude.toNat < 0 then int32 gpsData.longitude.toNat * -1
        else int32 gpsData.longitude.toNat
      longitudeDirection := if int32 gpsData.longitude.toNat < 0 then 'W' else 'E'
      timestamp := dateUTC
        (if 80 ≤ gpsData.year.toNat then gpsData.year.toNat + 1900 else gpsData.year.toNat + 2000 : Nat)
        ((gpsData.month.toNat : Int) - 1) gpsData.day.toNat gpsData.hours.toNat gpsData.minutes.toNat
        gpsData.seconds.toNat
      satelliteCount := gpsData.satelliteCount.toNat } := by
  have hyear := year_of_packet gpsData
  have hbuf : (gpsCallback gpsData).gpsBuf = [0x02, gpsData.day, gpsData.month, gpsData.year, gpsData.hours,
      gpsData.minutes, gpsData.seconds,
      byteAt gpsData.latitude.toNat 24, byteAt gpsData.latitude.toNat 16, byteAt gpsData.latitude.toNat 8,
      byteAt gpsData.latitude.toNat 0,
      byteAt gpsData.longitude.toNat 24, byteAt gpsData.longitude.toNat 16, byteAt gpsData.longitude.toNat 8,
      byteAt gpsData.longitude.toNat 0,
      if 3 ≤ gpsData.satelliteCount then 0x02 else if 4 ≤ gpsData.satelliteCount then 0x03 else 0x01,
      gpsData.satelliteCount, 0] := by
    simp only [gpsCallback] at hyear ⊢
    simp only [Current.gpsBuf, hyear, be32, List.cons_append, List.nil_append]
  have hlatitude := ofBe32_int32 gpsData.latitude.toNat
  have hlongitude := ofBe32_int32 gpsData.longitude.toNat
  rw [hbuf]
  simp only [parseGps, readUInt8, readInt32BE, List.getElem?_cons_succ, List.getElem?_cons_zero, Option.map_some,
    Option.bind_eq_bind, Option.bind_some, Nat.reduceAdd, hlatitude, hlongitude]

theorem signed_direction {x : Int} {negative positive : Char} (hne : positive ≠ negative) :
    (if (if x < 0 then negative else positive) = negative then -(if x < 0 then x * -1 else x)
      else if x < 0 then x * -1 else x) = x := by
  by_cases hx : x < 0
  · simp only [hx, if_true]
    omega
  · simp only [hx, if_false, if_neg hne]

theorem dateUTC_eq_iff (h : Shows gpsData m) (hm : m.Valid) :
    dateUTC (if 80 ≤ gpsData.year.toNat then gpsData.year.toNat + 1900 else gpsData.year.toNat + 2000 : Nat)
      ((gpsData.month.toNat : Int) - 1) gpsData.day.toNat gpsData.hours.toNat gpsData.minutes.toNat
      gpsData.seconds.toNat = m.epoch * 1000 ↔ gpsData.year < 80 := by
  have hyear := h.year
  rw [h.month, h.day, h.hours, h.minutes, h.seconds, dateUTC, UInt8.lt_iff_toNat_lt]
  change _ ↔ gpsData.year.toNat < 80
  by_cases hlate : 80 ≤ gpsData.year.toNat
  · have hcentury : ((gpsData.year.toNat + 1900 : Nat) : Int) = m.year - 100 := by omega
    have hlt := epoch_century_lt hm
    simp only [Moment.epoch] at hlt ⊢
    rw [if_pos hlate, hcentury]
    refine iff_of_false ?_ (Nat.not_lt.mpr hlate)
    omega
  · have hsame : ((gpsData.year.toNat + 2000 : Nat) : Int) = m.year := by omega
    rw [if_neg hlate, hsame]
    exact iff_of_true rfl (Nat.not_le.mp hlate)

/-! ## What is told -/

/-- What modules and the server are told of a fix at this many seconds: a call that waits is
ended by the controller's answer, and returns the number of satellites of a time. -/
structure Told (bytesOf : Int → Bytes) (gpsData : GpsData) (epoch : Int) : Prop where
  time : ∀ (s s' : Api) frame sender time payload, s.incomingActiveCallback = some .timelocation →
    timelocationApiCallback (gpsCallback gpsData) commandFrame timeLocationApiType timeLocationGetTimeMessage =
      .response timeLocationGetTimeMessage payload →
    Carries frame timeLocationGetTimeMessage payload →
    (s.recv ⟨frame.messageLength.toNat, sender, some frame⟩).1 = s' →
    ∀ w ∈ (signpostTimelocationGetTime (fun tm => bytesOf (mktime tm)) time).wait, ∀ err rc, 0 ≤ rc →
      s'.flag w.flag = true ∧ w.woken err rc s' =
        ({ s' with heap := s'.heap.copy time (bytesOf epoch) },
          if gpsData.satelliteCount < 3 then portEnosat else gpsData.satelliteCount.toNat)
  location : ∀ (s s' : Api) frame sender location payload, s.incomingActiveCallback = some .timelocation →
    timelocationApiCallback (gpsCallback gpsData) commandFrame timeLocationApiType timeLocationGetLocationMessage =
      .response timeLocationGetLocationMessage payload →
    Carries frame timeLocationGetLocationMessage payload →
    (s.recv ⟨frame.messageLength.toNat, sender, some frame⟩).1 = s' →
    ∀ w ∈ (signpostTimelocationGetLocation location).wait, ∀ err rc, 0 ≤ rc →
      s'.flag w.flag = true ∧ w.woken err rc s' =
        ({ s' with heap := s'.heap.copy location (gpsCallback gpsData).location.bytes }, 9)
  published : ∃ message, parseGps (gpsCallback gpsData).gpsBuf = some message ∧
    message.satelliteCount = gpsData.satelliteCount.toNat ∧
    (if message.latitudeDirection = 'S' then -message.latitude else message.latitude) =
      int32 gpsData.latitude.toNat ∧
    (if message.longitudeDirection = 'W' then -message.longitude else message.longitude) =
      int32 gpsData.longitude.toNat ∧
    (message.timestamp = epoch * 1000 ↔ gpsData.year < 80)

theorem recv_carries {s : Api} {frame : Parsed} {messageType : UInt8} {payload : Bytes} (sender : UInt8)
    (hwaiting : s.incomingActiveCallback = some .timelocation) (hcarries : Carries frame messageType payload) :
    (s.recv ⟨frame.messageLength.toNat, sender, some frame⟩).1 =
      timelocationCallback frame.messageLength.toNat
        { s with incoming := frame, incomingActiveCallback := none } := by
  have hlen : ¬ (frame.messageLength.toNat : Int) < 0 := Int.not_lt.mpr (Int.natCast_nonneg _)
  have hcommand : ¬ (responseFrame = notificationFrame ∨ responseFrame = commandFrame) := by decide
  simp only [Api.recv, signpostApiRecvCallback, Option.getD_some, hcarries.frameType, if_neg hlen, if_neg hcommand,
    true_or, if_true, hwaiting]
  rfl

/-- The wait for the answer goes on with the length of the message, which is of the type asked for. -/
theorem woken_timelocation (s : Api) {frame : Parsed} {messageType : UInt8} {payload : Bytes}
    {null : Bool} {next : Int → Api → Api × Int} {w : Wait}
    (hw : w ∈ ((signpostTimelocationSync messageType).timelocation null next).wait)
    (hcarries : Carries frame messageType payload) (err : Int) {rc : Int} (hrc : 0 ≤ rc) :
    let s' := timelocationCallback frame.messageLength.toNat
      { s with incoming := frame, incomingActiveCallback := none }
    s'.flag w.flag = true ∧ w.woken err rc s' = next frame.messageLength.toNat s' := by
  have hlen : ¬ (frame.messageLength.toNat : Int) < 0 := Int.not_lt.mpr (Int.natCast_nonneg _)
  simp only [ApiCall.timelocation, signpostTimelocationSync, Option.map_some, Option.mem_def, Option.some.injEq] at hw
  subst hw
  refine ⟨rfl, ?_⟩
  simp [timelocationCallback, Api.set, if_neg (Int.not_lt.mpr hrc), hcarries.messageType, hlen]

theorem messageLength_of_holds {frame : Parsed} {payload : Bytes} {n : UInt32} (h : frame.Holds payload)
    (hn : payload.length = n.toNat) : frame.messageLength = n :=
  UInt32.toNat_inj.mp (h.length.trans hn)

/-- A fix of some seconds after any moment is told to a module as that many seconds after it, and
with the location of the fix; the server is told so of the years it does not take for those
of the century before. -/
theorem fix_told (bytesOf : Int → Bytes) (hm : m.Valid) (n : Nat) (h : Shows gpsData (Moment.tick^[n] m)) :
    Told bytesOf gpsData (m.epoch + n) := by
  rw [← epoch_iterate_tick hm n]
  refine ⟨?time, ?location, ?published⟩
  case time =>
    intro s s' frame sender time payload hwaiting hanswer hcarries hrecv w hw err rc hrc
    have hpayload : (gpsCallback gpsData).time.bytes = payload := (Answer.response.inj hanswer).2
    subst hpayload
    rw [recv_carries sender hwaiting hcarries] at hrecv
    obtain ⟨hflag, hwoken⟩ := woken_timelocation s hw hcarries err hrc
    rw [hrecv] at hflag hwoken
    have hincoming : s'.incoming = frame := by
      rw [← hrecv]
      rfl
    have hlength : s'.incoming.messageLength = sizeofTime := by
      rw [hincoming]
      exact messageLength_of_holds hcarries.holds rfl
    have hread : s'.incoming.message.read 0 8 = (gpsCallback gpsData).time.bytes := by
      rw [hincoming]
      exact hcarries.holds.read
    obtain ⟨hmoment, hsatellites⟩ := h.mktime_eq hread
    refine ⟨hflag, hwoken.trans ?_⟩
    rw [if_neg (not_not_intro hlength)]
    simp only [hmoment, hsatellites]
  case location =>
    intro s s' frame sender location payload hwaiting hanswer hcarries hrecv w hw err rc hrc
    have hpayload : (gpsCallback gpsData).location.bytes = payload := (Answer.response.inj hanswer).2
    subst hpayload
    rw [recv_carries sender hwaiting hcarries] at hrecv
    obtain ⟨hflag, hwoken⟩ := woken_timelocation s hw hcarries err hrc
    rw [hrecv] at hflag hwoken
    have hincoming : s'.incoming = frame := by
      rw [← hrecv]
      rfl
    have hlength : frame.messageLength = sizeofLocation := messageLength_of_holds hcarries.holds rfl
    have hread : s'.incoming.message.read 0 sizeofLocation.toNat = (gpsCallback gpsData).location.bytes := by
      rw [hincoming]
      exact hcarries.holds.read
    refine ⟨hflag, hwoken.trans ?_⟩
    rw [hread, if_neg (not_not_intro (by rw [hincoming, hlength])), hlength]
    rfl
  case published =>
    have south : 'N' ≠ 'S' := by decide
    have west : 'E' ≠ 'W' := by decide
    refine ⟨_, parseGps_gpsBuf gpsData, ?_, ?_, ?_, ?_⟩
    · dsimp only
    · generalize int32 gpsData.latitude.toNat = x
      exact signed_direction south
    · generalize int32 gpsData.longitude.toNat = x
      exact signed_direction west
    · exact dateUTC_eq_iff h (hm.iterate_tick n)

end

/-- A fix ten seconds after the last ones of 28 February 2016. -/
def leapDay : GpsData where
  day := 29
  month := 2
  year := 16
  hours := 0
  minutes := 0
  seconds := 0
  microseconds := 0
  latitude := 37875000
  longitude := 4172709000
  fix := 3
  satelliteCount := 7

theorem fix_told_leap_day : Told (fun t => le32 (UInt32.ofNat t.toNat)) leapDay 1456704000 := by
  have hvalid : Moment.Valid ⟨2016, 2, 28, 23, 59, 50⟩ :=
    ⟨by decide, by decide, by decide, by decide, by decide⟩
  have hshows : Shows leapDay (Moment.tick^[10] ⟨2016, 2, 28, 23, 59, 50⟩) :=
    ⟨rfl, rfl, rfl, rfl, rfl, rfl⟩
  exact fix_told _ hvalid 10 hshows

end TimeLocation

end Signpost
