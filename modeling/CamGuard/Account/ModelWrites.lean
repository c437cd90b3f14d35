/-
The thing-model write codec (`model_write_protocol.py`), the typed writes that
may use it (`model_control_specs.py`) and their requests (`volume.py`,
`orientation.py`, `night_vision.py`, `smart_protection.py`,
`smart_protection_schedule.py`, `alarm_voice_selection.py`).
-/
import CamGuard.Account.AlarmVoice

namespace CamGuard.Account

open CamGuard.Crypto

/-! ## Values -/

/-- The keys of `VOLUME_RAW_BY_PERCENT`. -/
inductive VolumePercent where
  | zero
  | quarter
  | half
  | threeQuarters
  | full
  deriving DecidableEq, Repr

/-- `VOLUME_RAW_BY_PERCENT`. -/
def VolumePercent.raw : VolumePercent → Nat
  | .zero => 0
  | .quarter => 2
  | .half => 5
  | .threeQuarters => 7
  | .full => 10

/-- `Orientation`. -/
inductive Orientation where
  | normal
  | inverted
  deriving DecidableEq, Repr

/-- `ORIENTATION_VALUES`. -/
def Orientation.raw : Orientation → Nat
  | .normal => 1
  | .inverted => 3

/-- `NightVisionMode`. -/
inductive NightVisionMode where
  | automatic
  | daytime
  | night
  deriving DecidableEq, Repr

/-- `NIGHT_VISION_VALUES`. -/
def NightVisionMode.raw : NightVisionMode → Nat
  | .automatic => 0
  | .daytime => 1
  | .night => 2

/-- The days as the camera numbers them. -/
inductive Weekday where
  | sun
  | mon
  | tue
  | wed
  | thu
  | fri
  | sat
  deriving DecidableEq, Repr

/-- `WEEKDAY_BITS`. -/
def Weekday.bit : Weekday → Nat
  | .sun => 1 <<< 0
  | .mon => 1 <<< 1
  | .tue => 1 <<< 2
  | .wed => 1 <<< 3
  | .thu => 1 <<< 4
  | .fri => 1 <<< 5
  | .sat => 1 <<< 6

/-- A time of the day, `HH:MM`. -/
structure DayTime where
  hour : Nat
  minute : Nat
  hour_lt : hour < 24
  minute_lt : minute < 60
  deriving DecidableEq, Repr

/-- `WeeklySchedule`, with the checks of its `__post_init__`. -/
structure WeeklySchedule where
  start : DayTime
  finish : DayTime
  weekdays : List Weekday
  weekdays_ne : weekdays ≠ []
  weekdays_nodup : weekdays.Nodup

/-- One of `CONTROL_WRITE_TYPES`, but for its device. -/
inductive ControlWrite where
  | volume (percent : VolumePercent)
  | orientation (orientation : Orientation)
  | nightVision (mode : NightVisionMode)
  | guard (enabled : Bool)
  | guardSchedule (schedule : WeeklySchedule)
  | alarmVoice (resource : AlarmVoiceResource)

/-- `ControlWriteSpec`. -/
structure ControlWriteSpec where
  deviceId : Nat
  write : ControlWrite
  device_pos : 0 < deviceId
  device_lt : deviceId < 2 ^ 64

/-! ## Requests -/

def VOLUME_WRITE_PATH : String := "ProWritable.volume.setVal"
def ORIENTATION_PATH : String := "ProWritable.videoParm.setVal.multiFlip"
def NIGHT_VISION_WRITE_PATH : String := "ProWritable.videoParm.setVal.nightViewMode"
def SMART_PROTECTION_WRITE_PATH : String := "ProWritable.guardParm.setVal.enable"
def SMART_PROTECTION_SCHEDULE_WRITE_PATH : String := "ProWritable.guardParm.setVal.plan"
def ALARM_VOICE_WRITE_PATH : String := "ProWritable.resFile.setVal.resId"

/-- The request for an encoded value at one of the paths above, each of which
`build_model_write` admits. -/
def modelWriteFrame (node : CertifiedNode) (device : Nat) (path : String) (encodedJson : Bytes)
    (sequence message noise : Nat) : Except GuteFault Bytes :=
  let encodedPath := Bytes.ascii path
  let frame := newHeader 0xD2 (0x2A + 8 + encodedPath.length + 1 + encodedJson.length + 1) node.sessionId sequence
    (randomizedFlags noise 2 3)
  let frame := (frame.put 0 [0x7E]).put 0x18 [2]
  let frame := frame.put 0x20 (Bytes.ofNat 4 (message &&& 0x7FFFFFFF) ++ Bytes.ofNat 2 1 ++
    [7, UInt8.ofNat encodedPath.length] ++ Bytes.ofNat 2 encodedJson.length ++ Bytes.ofNat 8 device ++ encodedPath ++
    [0] ++ encodedJson)
  finishMode2 frame node.sessionKey

/-- What `build_model_write` takes as a value. -/
inductive ScalarModelValue where
  | int (value : Nat)
  /-- A text of base64 characters. -/
  | str (value : String)

/-- `json.dumps` of a scalar. -/
def ScalarModelValue.encoded : ScalarModelValue → Bytes
  | .int value => Bytes.ascii (toString value)
  | .str value => Bytes.ascii "\"" ++ Bytes.ascii value ++ Bytes.ascii "\""

/-- `build_model_write`. -/
def buildModelWrite (node : CertifiedNode) (device : Nat) (path : String) (value : ScalarModelValue)
    (sequence message noise : Nat) : Except GuteFault Bytes :=
  modelWriteFrame node device path value.encoded sequence message noise

/-- `build_volume_write`. -/
def buildVolumeWrite (node : CertifiedNode) (device : Nat) (percent : VolumePercent) (sequence message noise : Nat) :
    Except GuteFault Bytes :=
  buildModelWrite node device VOLUME_WRITE_PATH (.int percent.raw) sequence message noise

/-- `build_orientation_write`. -/
def buildOrientationWrite (node : CertifiedNode) (device : Nat) (orientation : Orientation)
    (sequence message noise : Nat) : Except GuteFault Bytes :=
  buildModelWrite node device ORIENTATION_PATH (.int orientation.raw) sequence message noise

/-- `build_night_vision_write`. -/
def buildNightVisionWrite (node : CertifiedNode) (device : Nat) (mode : NightVisionMode)
    (sequence message noise : Nat) : Except GuteFault Bytes :=
  buildModelWrite node device NIGHT_VISION_WRITE_PATH (.int mode.raw) sequence message noise

/-- `build_smart_protection_write`. -/
def buildSmartProtectionWrite (node : CertifiedNode) (device : Nat) (enabled : Bool) (sequence message noise : Nat) :
    Except GuteFault Bytes :=
  buildModelWrite node device SMART_PROTECTION_WRITE_PATH (.int (if enabled then 1 else 0)) sequence message noise

/-- `build_alarm_voice_selection_write`. -/
def buildAlarmVoiceSelectionWrite (node : CertifiedNode) (device : Nat) (resource : AlarmVoiceResource)
    (sequence message noise : Nat) : Except GuteFault Bytes :=
  buildModelWrite node device ALARM_VOICE_WRITE_PATH (.str resource.resourceId) sequence message noise

/-- The text of `_clock`. -/
def clockText (time : DayTime) : Bytes :=
  Bytes.ascii "\x7b\"hour\":" ++ Bytes.ascii (toString time.hour) ++ Bytes.ascii ",\"min\":" ++
    Bytes.ascii (toString time.minute) ++ Bytes.ascii "\x7d"

/-- The text of `native_smart_protection_schedule`. -/
def scheduleText (schedule : WeeklySchedule) : Bytes :=
  Bytes.ascii "\x7b\"start\":" ++ clockText schedule.start ++ Bytes.ascii ",\"end\":" ++ clockText schedule.finish ++
    Bytes.ascii ",\"weekdayEn\":" ++
    Bytes.ascii (toString (schedule.weekdays.foldl (fun mask day => mask ||| day.bit) 0)) ++ Bytes.ascii "\x7d"

/-- `build_smart_protection_schedule_write`. -/
def buildSmartProtectionScheduleWrite (node : CertifiedNode) (device : Nat) (schedule : WeeklySchedule)
    (sequence message noise : Nat) : Except GuteFault Bytes :=
  modelWriteFrame node device SMART_PROTECTION_SCHEDULE_WRITE_PATH (scheduleText schedule) sequence message noise

/-- The request of a `ControlWriteJob`. -/
def buildControlWrite (node : CertifiedNode) (spec : ControlWriteSpec) (sequence message noise : Nat) :
    Except GuteFault Bytes :=
  match spec.write with
  | .volume percent => buildVolumeWrite node spec.deviceId percent sequence message noise
  | .orientation orientation => buildOrientationWrite node spec.deviceId orientation sequence message noise
  | .nightVision mode => buildNightVisionWrite node spec.deviceId mode sequence message noise
  | .guard enabled => buildSmartProtectionWrite node spec.deviceId enabled sequence message noise
  | .guardSchedule schedule => buildSmartProtectionScheduleWrite node spec.deviceId schedule sequence message noise
  | .alarmVoice resource => buildAlarmVoiceSelectionWrite node spec.deviceId resource sequence message noise

/-- `parse_model_write_response`. -/
def parseModelWriteResponse (frame : Bytes) (message : Nat) : Option Nat :=
  if frame.length < 0x36 ∨ frame.at_ 1 ≠ 0xD3 ∨ frame.field 4 0x30 ≠ message then none else some (frame.field 2 0x34)

end CamGuard.Account
