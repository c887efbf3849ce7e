import Mathlib.Data.Fintype.Basic

/-! The records that the device sends, as the receiver reads them from the channel. -/

namespace CuTracer.Capture.Records

abbrev Lanes (α : Type) := Fin 32 → α

inductive ClusterAttribution where
  | unavailable
  | supported
  | unsupportedArch
  deriving DecidableEq

/-- `reg_info_t`. The receiver refuses counts that are negative or above `MAX_REG_OPERANDS`. -/
structure RegInfo where
  ctaIdX : Int32
  ctaIdY : Int32
  ctaIdZ : Int32
  warpId : Int32
  opcodeId : Int32
  numRegs : Int32
  regVals : Lanes (Fin 16 → UInt32)
  kernelLaunchId : UInt64
  pc : UInt64
  numUregs : Int32
  uregVals : Fin 16 → UInt32
  activeMask : UInt32

/-- `mem_addr_access_t`. -/
structure MemAddrAccess where
  kernelLaunchId : UInt64
  ctaIdX : Int32
  ctaIdY : Int32
  ctaIdZ : Int32
  pc : UInt64
  warpId : Int32
  opcodeId : Int32
  staticMemorySpace : Int32
  addrs : Lanes UInt64
  activeMask : UInt32
  clusterSharedMask : UInt32
  issuerClusterRank : UInt32
  targetClusterRanks : Lanes UInt32
  clusterAttribution : ClusterAttribution

/-- `opcode_only_t`. -/
structure OpcodeOnly where
  kernelLaunchId : UInt64
  ctaIdX : Int32
  ctaIdY : Int32
  ctaIdZ : Int32
  pc : UInt64
  warpId : Int32
  opcodeId : Int32
  activeMask : UInt32

end CuTracer.Capture.Records
