/-!
# Types of constants and parameters

A symbol of a constant table and a parameter of an effect carry the same description of their
type: a class, an element type, dimensions, and the members of a structure.
-/

namespace ShaderPipeline

/-- The register file a symbol lives in. -/
inductive RegisterSet where
  | bool
  | int4
  | float4
  | sampler
  deriving DecidableEq, Repr, Inhabited

namespace RegisterSet

def all : List RegisterSet := [bool, int4, float4, sampler]

def code : RegisterSet → Nat
  | bool => 0
  | int4 => 1
  | float4 => 2
  | sampler => 3

def ofCode? (n : Nat) : Option RegisterSet := all.find? (·.code == n)

def name : RegisterSet → String
  | bool => "Bool"
  | int4 => "Int4"
  | float4 => "Float4"
  | sampler => "Sampler"

end RegisterSet

/-- The shape of a value. -/
inductive TypeClass where
  | scalar
  | vector
  | matrixRows
  | matrixColumns
  | object
  | struct
  deriving DecidableEq, Repr, Inhabited

namespace TypeClass

def all : List TypeClass := [scalar, vector, matrixRows, matrixColumns, object, struct]

def code : TypeClass → Nat
  | scalar => 0
  | vector => 1
  | matrixRows => 2
  | matrixColumns => 3
  | object => 4
  | struct => 5

def ofCode? (n : Nat) : Option TypeClass := all.find? (·.code == n)

def isNumeric : TypeClass → Bool
  | scalar | vector | matrixRows | matrixColumns => true
  | object | struct => false

def name : TypeClass → String
  | scalar => "Scalar"
  | vector => "Vector"
  | matrixRows => "MatrixRows"
  | matrixColumns => "MatrixColumns"
  | object => "Object"
  | struct => "Struct"

end TypeClass

/-- The type of a value's elements. -/
inductive ElementType where
  | void
  | bool
  | int
  | float
  | string
  | texture
  | texture1D
  | texture2D
  | texture3D
  | textureCube
  | sampler
  | sampler1D
  | sampler2D
  | sampler3D
  | samplerCube
  | pixelShader
  | vertexShader
  | pixelFragment
  | vertexFragment
  | other
  deriving DecidableEq, Repr, Inhabited

namespace ElementType

def all : List ElementType :=
  [void, bool, int, float, string, texture, texture1D, texture2D, texture3D, textureCube, sampler,
    sampler1D, sampler2D, sampler3D, samplerCube, pixelShader, vertexShader, pixelFragment,
    vertexFragment, other]

def code : ElementType → Nat
  | void => 0
  | bool => 1
  | int => 2
  | float => 3
  | string => 4
  | texture => 5
  | texture1D => 6
  | texture2D => 7
  | texture3D => 8
  | textureCube => 9
  | sampler => 10
  | sampler1D => 11
  | sampler2D => 12
  | sampler3D => 13
  | samplerCube => 14
  | pixelShader => 15
  | vertexShader => 16
  | pixelFragment => 17
  | vertexFragment => 18
  | other => 19

/-- The element type with a given number; every number without one is `other`. -/
def ofCode (n : Nat) : ElementType := (all.find? (·.code == n)).getD other

def isTexture : ElementType → Bool
  | texture | texture1D | texture2D | texture3D | textureCube => true
  | _ => false

def isSampler : ElementType → Bool
  | sampler | sampler1D | sampler2D | sampler3D | samplerCube => true
  | _ => false

def isShader : ElementType → Bool
  | pixelShader | vertexShader => true
  | _ => false

/-- Whether the type is a number, the only kind allowed in registers. -/
def isNumeric : ElementType → Bool
  | bool | int | float => true
  | _ => false

def name : ElementType → String
  | void => "Void"
  | bool => "Bool"
  | int => "Int"
  | float => "Float"
  | string => "String"
  | texture => "Texture"
  | texture1D => "Texture1D"
  | texture2D => "Texture2D"
  | texture3D => "Texture3D"
  | textureCube => "TextureCube"
  | sampler => "Sampler"
  | sampler1D => "Sampler1D"
  | sampler2D => "Sampler2D"
  | sampler3D => "Sampler3D"
  | samplerCube => "SamplerCube"
  | pixelShader => "PixelShader"
  | vertexShader => "VertexShader"
  | pixelFragment => "PixelFragment"
  | vertexFragment => "VertexFragment"
  | other => "Unsupported"

end ElementType

mutual

/-- A type: class, element type, dimensions, and the members of a structure. -/
structure TypeInfo where
  cls : TypeClass
  elem : ElementType
  rows : Nat
  columns : Nat
  /-- The number of array elements; zero for a value that is no array. -/
  elements : Nat
  members : List Member
  deriving Repr

/-- A named member of a structure. -/
structure Member where
  name : String
  info : TypeInfo
  deriving Repr

end

mutual

def TypeInfo.decideEq : (s t : TypeInfo) → Decidable (s = t)
  | ⟨c, e, r, k, n, ms⟩, ⟨c', e', r', k', n', ms'⟩ =>
    match decEq (c, e, r, k, n) (c', e', r', k', n'), Member.decideEqList ms ms' with
    | isTrue h₁, isTrue h₂ => isTrue (by cases h₁; rw [h₂])
    | isFalse h, _ => isFalse (by intro h'; cases h'; exact h rfl)
    | _, isFalse h => isFalse (by intro h'; cases h'; exact h rfl)

def Member.decideEq : (s t : Member) → Decidable (s = t)
  | ⟨a, i⟩, ⟨b, j⟩ =>
    match decEq a b, TypeInfo.decideEq i j with
    | isTrue h₁, isTrue h₂ => isTrue (by rw [h₁, h₂])
    | isFalse h, _ => isFalse (by intro h'; cases h'; exact h rfl)
    | _, isFalse h => isFalse (by intro h'; cases h'; exact h rfl)

def Member.decideEqList : (s t : List Member) → Decidable (s = t)
  | [], [] => isTrue rfl
  | [], _ :: _ => isFalse (by intro h; cases h)
  | _ :: _, [] => isFalse (by intro h; cases h)
  | m :: ms, m' :: ms' =>
    match Member.decideEq m m', Member.decideEqList ms ms' with
    | isTrue h₁, isTrue h₂ => isTrue (by rw [h₁, h₂])
    | isFalse h, _ => isFalse (by intro h'; cases h'; exact h rfl)
    | _, isFalse h => isFalse (by intro h'; cases h'; exact h rfl)

end

instance : DecidableEq TypeInfo := TypeInfo.decideEq

instance : DecidableEq Member := Member.decideEq

instance : Inhabited TypeInfo := ⟨⟨.scalar, .void, 0, 0, 0, []⟩⟩

instance : Inhabited Member := ⟨⟨"", default⟩⟩

/-- A named constant and the registers it occupies. -/
structure Symbol where
  name : String
  registerSet : RegisterSet
  index : Nat
  count : Nat
  info : TypeInfo
  deriving DecidableEq, Repr, Inhabited

def Symbol.covers (s : Symbol) (register : Nat) : Bool :=
  s.index ≤ register && register < s.index + s.count

end ShaderPipeline
