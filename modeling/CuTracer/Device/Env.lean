import CuTracer.Library.Strtol

/-! The environment of an instrumented target, and how the tool reads its variables. -/

namespace CuTracer.Device

abbrev Env := String → Option String

namespace Env

def set (name value : String) (env : Env) : Env := fun n => if n = name then some value else env n

/-- `if value is not None: env[name] = value`. -/
def setOption (name : String) (value : Option String) (env : Env) : Env :=
  match value with
  | none => env
  | some value => env.set name value

def getVarInt (env : Env) (name : String) (default_val : Int32) : Int32 :=
  match env name with
  | none => default_val
  | some text => Strtol.atoi text.toList

def getVarUInt64 (env : Env) (name : String) (default_val : UInt64) : UInt64 :=
  match env name with
  | none => default_val
  | some text => Strtol.unsigned 10 text.toList

/-- `get_var_uint32_auto`: the base is in the text. -/
def getVarUInt32Auto (env : Env) (name : String) (default_val : UInt32) : UInt32 :=
  match env name with
  | none => default_val
  | some text => (Strtol.unsigned 0 text.toList).toUInt32

def getVarStr (env : Env) (name default_val : String) : String := (env name).getD default_val

theorem setOption_apply (name n : String) (value : Option String) (env : Env) :
    env.setOption name value n = if n = name then value.or (env n) else env n := by
  cases value with
  | none => simp [setOption]
  | some v => simp [setOption, set]

end Env

end CuTracer.Device
