import Mathlib.Data.List.Basic
import Mathlib.Tactic.Ring

/-!
# Frames of a fixed size in a byte stream

A sender that writes frames of one size back to back and a receiver that
always takes whole frames agree on the frame boundaries: what is stored
between them is the encoding of the frames under way, followed by the part of
the last frame that has been sent so far.

The little-endian representation of a natural number is the encoding used by
programs that pass the bytes of a machine word.
-/

namespace LatencyBenchmark

/-- Frames that are all encoded by the same number of bytes. -/
structure FrameCodec (Frame Byte : Type*) where
  size : Nat
  encode : Frame → List Byte
  decode : List Byte → Frame
  size_pos : 0 < size
  length_encode : ∀ frame, (encode frame).length = size
  decode_encode : ∀ frame, decode (encode frame) = frame

namespace FrameCodec

variable {Frame Byte : Type*} (codec : FrameCodec Frame Byte)

/-- The bytes of frames sent back to back. -/
def encodeAll (frames : List Frame) : List Byte :=
  frames.flatMap codec.encode

@[simp]
theorem encodeAll_nil : codec.encodeAll [] = [] :=
  rfl

@[simp]
theorem encodeAll_cons (frame : Frame) (frames : List Frame) :
    codec.encodeAll (frame :: frames) =
      codec.encode frame ++ codec.encodeAll frames :=
  rfl

@[simp]
theorem encodeAll_append (frames later : List Frame) :
    codec.encodeAll (frames ++ later) =
      codec.encodeAll frames ++ codec.encodeAll later :=
  List.flatMap_append

theorem length_encodeAll (frames : List Frame) :
    (codec.encodeAll frames).length = frames.length * codec.size := by
  induction frames with
  | nil => simp
  | cons frame frames induction =>
      rw [encodeAll_cons, List.length_append, codec.length_encode, induction,
        List.length_cons]
      ring

/-- A whole frame taken from a stream that starts at a frame boundary is the
oldest frame under way, and the rest starts at a boundary again. -/
theorem exists_of_size_le {frames : List Frame} {part : List Byte}
    (part_lt : part.length < codec.size)
    (stored : codec.size ≤ (codec.encodeAll frames ++ part).length) :
    ∃ frame rest, frames = frame :: rest ∧
      (codec.encodeAll frames ++ part).take codec.size =
        codec.encode frame ∧
      (codec.encodeAll frames ++ part).drop codec.size =
        codec.encodeAll rest ++ part := by
  cases frames with
  | nil =>
      rw [encodeAll_nil, List.nil_append] at stored
      omega
  | cons frame rest =>
      refine ⟨frame, rest, rfl, ?_, ?_⟩
      · rw [encodeAll_cons, List.append_assoc,
          List.take_left' (codec.length_encode frame)]
      · rw [encodeAll_cons, List.append_assoc,
          List.drop_left' (codec.length_encode frame)]

end FrameCodec

/-! ## Little-endian words -/

/-- The low `size` bytes of a number, least significant first. -/
def leBytes : Nat → Nat → List UInt8
  | 0, _ => []
  | size + 1, number => UInt8.ofNat number :: leBytes size (number / 256)

/-- The number a list of bytes stands for, least significant first. -/
def leValue : List UInt8 → Nat
  | [] => 0
  | byte :: bytes => byte.toNat + 256 * leValue bytes

@[simp]
theorem length_leBytes (size number : Nat) :
    (leBytes size number).length = size := by
  induction size generalizing number with
  | zero => rfl
  | succ size induction => rw [leBytes, List.length_cons, induction]

theorem leValue_leBytes {size number : Nat} (bounded : number < 256 ^ size) :
    leValue (leBytes size number) = number := by
  induction size generalizing number with
  | zero =>
      rw [Nat.pow_zero, Nat.lt_one_iff] at bounded
      exact bounded.symm
  | succ size induction =>
      have dividedBound : number / 256 < 256 ^ size := by
        rw [pow_succ'] at bounded
        exact Nat.div_lt_of_lt_mul bounded
      have digit : (UInt8.ofNat number).toNat = number % 256 := by
        simp
      rw [leBytes, leValue, induction dividedBound, digit]
      omega

theorem ofNat_leValue_leBytes {size : Nat} (word : BitVec (8 * size)) :
    BitVec.ofNat (8 * size) (leValue (leBytes size word.toNat)) = word := by
  have bounded : word.toNat < 256 ^ size := by
    have inside := word.isLt
    rw [pow_mul] at inside
    exact inside
  rw [leValue_leBytes bounded, BitVec.ofNat_toNat, BitVec.setWidth_eq]

/-- The object representation of a machine word of `8 * size` bits. -/
def leCodec (size : Nat) (size_pos : 0 < size) :
    FrameCodec (BitVec (8 * size)) UInt8 where
  size := size
  encode := fun word => leBytes size word.toNat
  decode := fun bytes => BitVec.ofNat _ (leValue bytes)
  size_pos := size_pos
  length_encode := fun word => length_leBytes size word.toNat
  decode_encode := ofNat_leValue_leBytes

end LatencyBenchmark
