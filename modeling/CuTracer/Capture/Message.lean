import CuTracer.Capture.Writer
import Mathlib.Data.Nat.Digits.Defs

/-! The messages in a chunk of the channel. A message has no length of its own: its type
tells the struct it is, and the layout of the struct where the launch stands and where the
next message begins. -/

namespace CuTracer.Capture

open Writer (Byte)

/-! ### Structs -/

/-- A member of a struct, or an array of them, which is aligned to the size of one. -/
structure Member where
  name : String
  size : ℕ
  count : ℕ := 1

def roundUp (n alignment : ℕ) : ℕ := (n + alignment - 1) / alignment * alignment

/-- Where the members begin that follow `offset` bytes, and where the last one ends. -/
def place : ℕ → List Member → List (String × ℕ) × ℕ
  | offset, [] => ([], offset)
  | offset, m :: members =>
    let start := roundUp offset m.size
    let rest := place (start + m.size * m.count) members
    ((m.name, start) :: rest.1, rest.2)

def offsetOf (members : List Member) (name : String) : ℕ :=
  ((place 0 members).1.lookup name).getD 0

def sizeOf (members : List Member) : ℕ :=
  roundUp (place 0 members).2 ((members.map Member.size).foldl max 1)

/-! ### Types of messages -/

def messageHeader : List Member := [⟨"type", 4, 1⟩]

inductive MessageType where
  | regInfo
  | memAddrAccess
  | opcodeOnly
  | memValueAccess
  | tmaAccess
  | planObservation
  deriving DecidableEq

def MessageType.ofRaw : ℤ → Option MessageType
  | 0 => some .regInfo
  | 1 => some .memAddrAccess
  | 2 => some .opcodeOnly
  | 3 => some .memValueAccess
  | 4 => some .tmaAccess
  | 5 => some .planObservation
  | _ => none

def maxRegOperands : ℕ := 16
def maxUregOperands : ℕ := 16
def tmaParamHandleMaxBytes : ℕ := 128
def planCaptureWords : ℕ := 16

def MessageType.members : MessageType → List Member
  | .regInfo => messageHeader ++
    [⟨"cta_id_x", 4, 1⟩, ⟨"cta_id_y", 4, 1⟩, ⟨"cta_id_z", 4, 1⟩, ⟨"warp_id", 4, 1⟩,
      ⟨"opcode_id", 4, 1⟩, ⟨"num_regs", 4, 1⟩, ⟨"reg_vals", 4, 32 * maxRegOperands⟩,
      ⟨"kernel_launch_id", 8, 1⟩, ⟨"pc", 8, 1⟩, ⟨"num_uregs", 4, 1⟩,
      ⟨"ureg_vals", 4, maxUregOperands⟩, ⟨"active_mask", 4, 1⟩]
  | .memAddrAccess => messageHeader ++
    [⟨"kernel_launch_id", 8, 1⟩, ⟨"cta_id_x", 4, 1⟩, ⟨"cta_id_y", 4, 1⟩, ⟨"cta_id_z", 4, 1⟩,
      ⟨"pc", 8, 1⟩, ⟨"warp_id", 4, 1⟩, ⟨"opcode_id", 4, 1⟩, ⟨"static_memory_space", 4, 1⟩,
      ⟨"addrs", 8, 32⟩, ⟨"active_mask", 4, 1⟩, ⟨"cluster_shared_mask", 4, 1⟩,
      ⟨"issuer_cluster_rank", 4, 1⟩, ⟨"target_cluster_ranks", 4, 32⟩,
      ⟨"cluster_attribution", 4, 1⟩]
  | .opcodeOnly => messageHeader ++
    [⟨"kernel_launch_id", 8, 1⟩, ⟨"cta_id_x", 4, 1⟩, ⟨"cta_id_y", 4, 1⟩, ⟨"cta_id_z", 4, 1⟩,
      ⟨"pc", 8, 1⟩, ⟨"warp_id", 4, 1⟩, ⟨"opcode_id", 4, 1⟩, ⟨"active_mask", 4, 1⟩]
  | .memValueAccess => messageHeader ++
    [⟨"kernel_launch_id", 8, 1⟩, ⟨"cta_id_x", 4, 1⟩, ⟨"cta_id_y", 4, 1⟩, ⟨"cta_id_z", 4, 1⟩,
      ⟨"pc", 8, 1⟩, ⟨"warp_id", 4, 1⟩, ⟨"opcode_id", 4, 1⟩, ⟨"mem_space", 4, 1⟩,
      ⟨"is_load", 4, 1⟩, ⟨"access_size", 4, 1⟩, ⟨"addrs", 8, 32⟩, ⟨"values", 4, 32 * 4⟩,
      ⟨"active_mask", 4, 1⟩]
  | .tmaAccess => messageHeader ++
    [⟨"kernel_launch_id", 8, 1⟩, ⟨"cta_id_x", 4, 1⟩, ⟨"cta_id_y", 4, 1⟩, ⟨"cta_id_z", 4, 1⟩,
      ⟨"pc", 8, 1⟩, ⟨"warp_id", 4, 1⟩, ⟨"opcode_id", 4, 1⟩, ⟨"tma_param_size", 4, 1⟩,
      ⟨"tma_param_handle_raw", 1, tmaParamHandleMaxBytes⟩, ⟨"desc_addr", 8, 1⟩,
      ⟨"desc_raw", 8, 16⟩, ⟨"active_mask", 4, 1⟩]
  | .planObservation => messageHeader ++
    [⟨"version", 4, 1⟩, ⟨"kernel_launch_id", 8, 1⟩, ⟨"point_id", 4, 1⟩, ⟨"config_index", 4, 1⟩,
      ⟨"sequence", 8, 1⟩, ⟨"cta", 4, 3⟩, ⟨"warp_in_cta", 4, 1⟩, ⟨"reached_mask", 4, 1⟩,
      ⟨"executed_mask", 4, 1⟩, ⟨"selected_mask", 4, 1⟩, ⟨"valid_mask", 4, 1⟩,
      ⟨"word_count", 4, 1⟩, ⟨"word_mask", 4, 1⟩, ⟨"values", 4, planCaptureWords * 32⟩]

def getMessageSize (type : MessageType) : ℕ := sizeOf type.members

/-- The size that the source notes beside the struct. -/
example : getMessageSize .memAddrAccess = 456 := by decide +kernel

/-! ### Reading -/

/-- A little-endian number of `width` bytes, `none` where it reaches past the end. -/
def readLe (bytes : List Byte) (offset width : ℕ) : Option ℕ :=
  if offset + width ≤ bytes.length then
    some (Nat.ofDigits 256 (((bytes.drop offset).take width).map UInt8.toNat))
  else none

def readInt32 (bytes : List Byte) (offset : ℕ) : Option ℤ :=
  (readLe bytes offset 4).map fun n : ℕ => Int.bmod n (2 ^ 32)

structure Message where
  type : MessageType
  launchId : ℕ
  bytes : List Byte

def getKernelLaunchId (type : MessageType) (bytes : List Byte) : Option ℕ :=
  readLe bytes (offsetOf type.members "kernel_launch_id") 8

inductive Parsed where
  | failed (reason : String)
  | message (m : Message)

/-- The message at the start of what is left of a chunk; `none` where it would read past
the end. -/
def nextMessage (remaining : List Byte) : Option Parsed :=
  if remaining.length < sizeOf messageHeader then some (.failed "truncated_channel_header")
  else do
    let rawType ← readInt32 remaining 0
    match MessageType.ofRaw rawType with
    | none => some (.failed "unknown_channel_message")
    | some type =>
      if getMessageSize type = 0 then some (.failed "unsupported_channel_message")
      else if remaining.length < getMessageSize type then
        some (.failed "truncated_channel_message")
      else do
        let bytes := remaining.take (getMessageSize type)
        let launchId ← getKernelLaunchId type bytes
        some (.message ⟨type, launchId, bytes⟩)

/-- Why a message is discarded that the receiver cannot turn into a record; `none` of the
outer option where it would read past the end. -/
def discardReason (m : Message) : Option (Option String) :=
  match m.type with
  | .regInfo => do
    let numRegs ← readInt32 m.bytes (offsetOf m.type.members "num_regs")
    let numUregs ← readInt32 m.bytes (offsetOf m.type.members "num_uregs")
    if numRegs < 0 ∨ maxRegOperands < numRegs ∨ numUregs < 0 ∨ maxUregOperands < numUregs then
      some (some "invalid_register_counts")
    else some none
  | .tmaAccess => do
    let paramSize ← readLe m.bytes (offsetOf m.type.members "tma_param_size") 4
    if tmaParamHandleMaxBytes < paramSize then some (some "invalid_tma_size") else some none
  | _ => some none

/-! ### Well-formed messages -/

/-- Bytes of the struct of the type and launch that they name. -/
structure Message.WellFormed (m : Message) : Prop where
  size : m.bytes.length = getMessageSize m.type
  type : (readInt32 m.bytes 0).bind MessageType.ofRaw = some m.type
  launch : getKernelLaunchId m.type m.bytes = some m.launchId

/-- Bytes at whose start no message stands. -/
def Malformed (remaining : List Byte) : Prop :=
  ∀ m : Message, m.WellFormed → ¬m.bytes <+: remaining

theorem readLe_isSome {bytes : List Byte} {offset width : ℕ}
    (h : offset + width ≤ bytes.length) : ∃ n, readLe bytes offset width = some n :=
  ⟨_, if_pos h⟩

theorem readInt32_isSome {bytes : List Byte} {offset : ℕ} (h : offset + 4 ≤ bytes.length) :
    ∃ n, readInt32 bytes offset = some n := by
  obtain ⟨n, hn⟩ := readLe_isSome h
  exact ⟨_, by rw [readInt32, hn, Option.map_some]⟩

/-- What is read at the start of some bytes is read of any that go on behind them. -/
theorem readLe_head {bytes remaining : List Byte} (h : bytes <+: remaining) {offset width : ℕ}
    (hlength : offset + width ≤ bytes.length) :
    readLe remaining offset width = readLe bytes offset width := by
  obtain ⟨rest, rfl⟩ := h
  have hlong : offset + width ≤ (bytes ++ rest).length := by
    rw [List.length_append]
    omega
  rw [readLe, readLe, if_pos hlength, if_pos hlong, List.drop_append_of_le_length (by omega),
    List.take_append_of_le_length (by rw [List.length_drop]; omega)]

theorem readInt32_head {bytes remaining : List Byte} (h : bytes <+: remaining) {offset : ℕ}
    (hlength : offset + 4 ≤ bytes.length) : readInt32 remaining offset = readInt32 bytes offset := by
  rw [readInt32, readInt32, readLe_head h hlength]

/-- Every struct holds its header and its launch. -/
theorem members_fit (type : MessageType) :
    sizeOf messageHeader = 4 ∧ 4 ≤ getMessageSize type ∧
      offsetOf type.members "kernel_launch_id" + 8 ≤ getMessageSize type := by
  cases type <;> decide +kernel

theorem fields_fit :
    offsetOf MessageType.regInfo.members "num_regs" + 4 ≤ getMessageSize .regInfo ∧
      offsetOf MessageType.regInfo.members "num_uregs" + 4 ≤ getMessageSize .regInfo ∧
      offsetOf MessageType.tmaAccess.members "tma_param_size" + 4 ≤ getMessageSize .tmaAccess := by
  decide +kernel

theorem Message.WellFormed.pos {m : Message} (h : m.WellFormed) : 0 < m.bytes.length := by
  have := (members_fit m.type).2.1
  rw [h.size]
  omega

/-- A message is found, or there is none; nothing is read past the end. -/
inductive Found (remaining : List Byte) : Parsed → Prop where
  | failed (reason : String) (h : Malformed remaining) : Found remaining (.failed reason)
  | message {m : Message} (h : m.WellFormed) (hhead : m.bytes <+: remaining) :
      Found remaining (.message m)

theorem Malformed.of_short {remaining : List Byte} (h : remaining.length < 4) :
    Malformed remaining := by
  intro m hm hhead
  have := (members_fit m.type).2.1
  have := hm.size
  have := hhead.length_le
  omega

/-- The type of a message is read at the start of what it stands at the start of. -/
theorem Message.WellFormed.readType {m : Message} (h : m.WellFormed) {remaining : List Byte}
    (hhead : m.bytes <+: remaining) :
    (readInt32 remaining 0).bind MessageType.ofRaw = some m.type := by
  have hlength : 0 + 4 ≤ m.bytes.length := by
    have := (members_fit m.type).2.1
    have := h.size
    omega
  rw [readInt32_head hhead hlength, h.type]

theorem nextMessage_found (remaining : List Byte) :
    ∃ parsed, nextMessage remaining = some parsed ∧ Found remaining parsed := by
  unfold nextMessage
  by_cases hshort : remaining.length < sizeOf messageHeader
  · have hheader : sizeOf messageHeader = 4 := (members_fit .regInfo).1
    rw [if_pos hshort]
    exact ⟨_, rfl, .failed _ (.of_short (hheader ▸ hshort))⟩
  rw [if_neg hshort]
  have hheader : 0 + 4 ≤ remaining.length := by
    have : sizeOf messageHeader = 4 := (members_fit .regInfo).1
    omega
  obtain ⟨rawType, hraw⟩ := readInt32_isSome hheader
  rw [hraw, Option.bind_eq_bind, Option.bind_some]
  cases htype : MessageType.ofRaw rawType with
  | none =>
    refine ⟨_, rfl, .failed _ fun m hm hhead => ?_⟩
    have hread := hm.readType hhead
    rw [hraw, Option.bind_some, htype] at hread
    cases hread
  | some type =>
    obtain ⟨-, hpos, hlaunch⟩ := members_fit type
    have hsupported : getMessageSize type ≠ 0 := by omega
    dsimp only
    rw [if_neg hsupported]
    by_cases htruncated : remaining.length < getMessageSize type
    · rw [if_pos htruncated]
      refine ⟨_, rfl, .failed _ fun m hm hhead => ?_⟩
      have hread := hm.readType hhead
      rw [hraw, Option.bind_some, htype, Option.some.injEq] at hread
      have := hm.size
      have := hhead.length_le
      rw [← hread] at *
      omega
    · rw [if_neg htruncated]
      have hsize : (remaining.take (getMessageSize type)).length = getMessageSize type :=
        List.length_take_of_le (by omega)
      obtain ⟨launchId, hid⟩ := readLe_isSome (hlaunch.trans hsize.ge)
      have hid' : getKernelLaunchId type (remaining.take (getMessageSize type)) = some launchId := hid
      rw [hid', Option.bind_eq_bind, Option.bind_some]
      refine ⟨_, rfl, .message ⟨hsize, ?_, hid'⟩ (List.take_prefix _ _)⟩
      show (readInt32 (remaining.take (getMessageSize type)) 0).bind MessageType.ofRaw = some type
      rw [← readInt32_head (List.take_prefix _ _) (by omega), hraw, Option.bind_some, htype]

/-- The fields that decide whether a message is discarded lie inside it. -/
theorem discardReason_isSome {m : Message} (h : m.WellFormed) :
    ∃ reason, discardReason m = some reason := by
  have hsize := h.size
  obtain ⟨hregs, huregs, hparam⟩ := fields_fit
  unfold discardReason
  cases htype : m.type with
  | regInfo =>
    rw [htype] at hsize
    obtain ⟨numRegs, hnumRegs⟩ := readInt32_isSome (hregs.trans hsize.ge)
    obtain ⟨numUregs, hnumUregs⟩ := readInt32_isSome (huregs.trans hsize.ge)
    simp only [hnumRegs, hnumUregs, Option.bind_eq_bind, Option.bind_some]
    split_ifs
    · exact ⟨_, rfl⟩
    · exact ⟨_, rfl⟩
  | tmaAccess =>
    rw [htype] at hsize
    obtain ⟨paramSize, hparamSize⟩ := readLe_isSome (hparam.trans hsize.ge)
    simp only [hparamSize, Option.bind_eq_bind, Option.bind_some]
    split_ifs
    · exact ⟨_, rfl⟩
    · exact ⟨_, rfl⟩
  | memAddrAccess => exact ⟨_, rfl⟩
  | opcodeOnly => exact ⟨_, rfl⟩
  | memValueAccess => exact ⟨_, rfl⟩
  | planObservation => exact ⟨_, rfl⟩

end CuTracer.Capture
