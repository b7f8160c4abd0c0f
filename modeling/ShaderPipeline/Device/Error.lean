import ShaderPipeline.Effect.Value
import ShaderPipeline.Numeric.Decimal
import ShaderPipeline.Preshader.Basic
import ShaderPipeline.Target.Profile

/-!
# Failures of the device
-/

namespace ShaderPipeline

/-- Why an operation of the device failed. -/
inductive DeviceError where
  | profileNeeds (profile : Profile) (requirement : String)
  | noProfiles
  | missingExtension (name : String)
  /-- A shader was not lowered without errors. -/
  | notLowered (message : String)
  /-- A shader was lowered for another profile. -/
  | wrongProfile (found expected : Profile)
  /-- A shader has no version. -/
  | noVersion
  | compile (log : String)
  | arb1Compile (position : Int) (message : String)
  | link (log : String)
  | nothingToLink
  | attributeLocation (location : Int)
  | selectorOutOfRange (selector : Binary32) (count : Nat)
  | notAShader (object : Nat)
  | effect (error : Effect.UsageError)
  | preshader (error : PreshaderError)
  deriving DecidableEq, Repr

def DeviceError.message : DeviceError → String
  | profileNeeds p requirement => s!"{p.name} profile needs {requirement}"
  | noProfiles => "no profiles available"
  | missingExtension name => s!"{name} is not available"
  | notLowered message => message
  | wrongProfile found expected =>
    s!"shader was translated for {found.name}, context uses {expected.name}"
  | noVersion => "shader has no version token"
  | compile log => log
  | arb1Compile position message => s!"ARB1 compile error at position {position}: {message}"
  | link log => log
  | nothingToLink => "no shaders to link"
  | attributeLocation location => s!"vertex attribute location {location} is out of range"
  | selectorOutOfRange selector count =>
    s!"shader selector {selector.shortestText} is out of range for {count} shaders"
  | notAShader object => s!"effect object {object} is not a shader"
  | effect e => e.message
  | preshader e => s!"preshader failed: {e.message}"

end ShaderPipeline
