import Mathlib

/-!
# The decoder of `adb track-devices`

The output is a stream of frames: four hexadecimal digits, the length, and a payload of one line for
each device. A read may end anywhere in a frame, whose bytes then wait for the next one.
-/

namespace Device

inductive DeviceLinkState
  | device | offline | unauthorized | noPermissions | other

structure TrackedDevice where
  serial : List UInt8
  state : DeviceLinkState

namespace LinkWatch

open List

def linkStateOfAdbState (word : List UInt8) : DeviceLinkState :=
  if word = "device".toUTF8.toList then .device
  else if word = "offline".toUTF8.toList then .offline
  else if word = "unauthorized".toUTF8.toList then .unauthorized
  else if "no permissions".toUTF8.toList <+: word then .noPermissions
  else .other

def hexDigit (byte : UInt8) : Option Nat :=
  if 48 ≤ byte ∧ byte ≤ 57 then some (byte.toNat - 48)
  else if 65 ≤ byte ∧ byte ≤ 70 then some (byte.toNat - 55)
  else if 97 ≤ byte ∧ byte ≤ 102 then some (byte.toNat - 87)
  else none

def frameLength (digits : List UInt8) : Option Nat :=
  digits.foldlM (fun length digit => (hexDigit digit).map (16 * length + ·)) 0

def isGraphic (byte : UInt8) : Bool := 33 ≤ byte && byte ≤ 126

/-- A line is a serial, a tab and a state; bytes that are not ASCII are in neither. -/
def parseLine (line : List UInt8) : Option TrackedDevice :=
  let serial := line.takeWhile (· ≠ 9)
  let state := (line.dropWhile (· ≠ 9)).tail
  if 9 ∈ line ∧ serial ≠ [] ∧ serial.all isGraphic ∧ state ≠ [] ∧ state.head? ≠ some 32 ∧
      state.all fun byte => isGraphic byte || byte = 32 then
    some ⟨serial, linkStateOfAdbState state⟩
  else none

def parseList (payload : List UInt8) : Option (List TrackedDevice) :=
  if payload = [] then some []
  else if payload.getLast? = some 10 then (payload.dropLast.splitOn 10).mapM parseLine
  else none

/-- The loop of `push`: the whole lists and the bytes that wait, or the invalid protocol. -/
def decode (pending : List UInt8) : Option (List (List TrackedDevice) × List UInt8) :=
  if pending.length < 4 then some ([], pending)
  else match frameLength (pending.take 4) with
    | none => none
    | some length =>
      if pending.length < 4 + length then some ([], pending)
      else match parseList ((pending.drop 4).take length) with
        | none => none
        | some list => (decode (pending.drop (4 + length))).map (Prod.map (list :: ·) id)
termination_by pending.length
decreasing_by
  rw [length_drop]
  omega

def push (pending bytes : List UInt8) : Option (List (List TrackedDevice) × List UInt8) :=
  decode (pending ++ bytes)

/-- What the reads give, one after another. -/
def pushAll (reads : List (List UInt8)) : Option (List (List TrackedDevice) × List UInt8) :=
  reads.foldl (fun state bytes => state.bind fun found =>
    (push found.2 bytes).map (Prod.map (found.1 ++ ·) id)) (some ([], []))

lemma cut_of_le {length : Nat} {front : List UInt8} (rest : List UInt8)
    (long : ¬ front.length < length) :
    (front ++ rest).take length = front.take length ∧
      (front ++ rest).drop length = front.drop length ++ rest ∧
      ¬ (front ++ rest).length < length := by
  rw [not_lt] at long
  refine ⟨take_append_of_le_length long, drop_append_of_le_length long, ?_⟩
  rw [length_append]
  omega

lemma decode_whole {length : Nat} {pending : List UInt8} (bytes : List UInt8)
    (long : ¬ pending.length < 4) (read : frameLength (pending.take 4) = some length)
    (whole : ¬ pending.length < 4 + length) :
    decode (pending ++ bytes) = (parseList ((pending.drop 4).take length)).bind fun list =>
      (decode (pending.drop (4 + length) ++ bytes)).map (Prod.map (list :: ·) id) := by
  obtain ⟨digits, rest, longer⟩ := cut_of_le bytes long
  obtain ⟨-, behind, wider⟩ := cut_of_le bytes whole
  rw [decode, if_neg longer, digits, read]
  simp only
  rw [if_neg wider, rest, take_append_of_le_length (by rw [length_drop]; omega), behind]
  cases parseList ((pending.drop 4).take length) <;> rfl

/-- Bytes that come later change nothing that was decoded. -/
lemma decode_append (pending bytes : List UInt8) :
    decode (pending ++ bytes) = (decode pending).bind fun found =>
      (decode (found.2 ++ bytes)).map (Prod.map (found.1 ++ ·) id) := by
  fun_induction decode pending with
  | case1 | case3 => exact Option.map_id'.symm
  | case2 pending long invalid =>
    obtain ⟨digits, -, longer⟩ := cut_of_le bytes long
    rw [decode, if_neg longer, digits, invalid]
    rfl
  | case4 pending long length read whole invalid =>
    rw [decode_whole bytes long read whole, invalid]
    rfl
  | case5 pending long length read whole list valid ih =>
    rw [decode_whole bytes long read whole, valid, Option.bind_some, ih]
    cases decode (pending.drop (4 + length)) with
    | none => rfl
    | some found => exact Option.map_map _ _ _

/-- However the reads cut the stream, they give the lists, the waiting bytes or the refusal that the
whole stream gives in one read. -/
theorem reads_cut_anywhere (reads : List (List UInt8)) : pushAll reads = decode reads.flatten := by
  induction reads using List.reverseRecOn with
  | nil => simp [pushAll, decode]
  | append_singleton reads bytes ih =>
    rw [flatten_append, flatten_singleton, decode_append, ← ih, pushAll, foldl_append]
    rfl

end LinkWatch

end Device
