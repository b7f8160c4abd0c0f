import ShaderPipeline.Bytecode.Version
import ShaderPipeline.Numeric.Binary
import ShaderPipeline.Numeric.Quad

/-!
# Calls of the graphics interface

The device changes the state of a driver by calls. Every call is recorded, so what the driver has
been told can be read off the record.
-/

namespace ShaderPipeline

namespace Device

/-! ## Numbers of the interface -/

def vertexShaderEnum : Nat := 0x8B31

def fragmentShaderEnum : Nat := 0x8B30

def maxVertexUniformsEnum : Nat := 0x8B4A

def maxFragmentUniformsEnum : Nat := 0x8B49

def maxTextureUnitsEnum : Nat := 0x8872

def pointSizeEnum : Nat := 0x8642

def vertexProgramEnum : Nat := 0x8620

def fragmentProgramEnum : Nat := 0x8804

def maxParametersEnum : Nat := 0x88A9

def shaderKind : Stage → Nat
  | .vertex => vertexShaderEnum
  | .pixel => fragmentShaderEnum

def programTarget : Stage → Nat
  | .vertex => vertexProgramEnum
  | .pixel => fragmentProgramEnum

/-- A call that changes the driver's state. -/
inductive Call where
  | enable (switch : Nat)
  | disable (switch : Nat)
  | createShader (kind name : Nat)
  | shaderSource (name : Nat) (text : String)
  | deleteShader (name : Nat)
  | createProgram (name : Nat)
  | attachShader (program shader : Nat)
  | linkProgram (name : Nat)
  | deleteProgram (name : Nat)
  | useProgram (name : Nat)
  | uniform1i (location : Int) (value : Int32)
  | uniform4fv (location : Int) (values : List Binary32)
  | uniform4iv (location : Int) (values : List Int32)
  | uniform1iv (location : Int) (values : List Int32)
  | genProgramArb (name : Nat)
  | bindProgramArb (target name : Nat)
  | programStringArb (target : Nat) (text : String)
  | deleteProgramArb (name : Nat)
  | localParameter4fv (target index : Nat) (values : Quad Binary32)
  | localParameterI4iv (target index : Nat) (values : Quad Int32)
  | enableVertexAttribArray (index : Nat)
  | disableVertexAttribArray (index : Nat)
  | vertexAttribPointer (index : Nat) (size : Int) (type : Nat) (normalized : Bool)
      (stride : Int) (offset : Nat)
  | vertexAttribDivisor (index divisor : Nat)
  deriving DecidableEq, Repr

end Device

end ShaderPipeline
