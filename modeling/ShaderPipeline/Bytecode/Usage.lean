/-!
# Semantics of vertex inputs and interpolated values
-/

namespace ShaderPipeline

/-- What a vertex input or an interpolated value means to the pipeline. -/
inductive Usage where
  | position
  | blendWeight
  | blendIndices
  | normal
  | pointSize
  | texCoord
  | tangent
  | binormal
  | tessFactor
  | positionT
  | color
  | fog
  | depth
  | sample
  deriving DecidableEq, Repr, Inhabited

namespace Usage

def all : List Usage :=
  [position, blendWeight, blendIndices, normal, pointSize, texCoord, tangent, binormal, tessFactor,
    positionT, color, fog, depth, sample]

def code : Usage → Nat
  | position => 0
  | blendWeight => 1
  | blendIndices => 2
  | normal => 3
  | pointSize => 4
  | texCoord => 5
  | tangent => 6
  | binormal => 7
  | tessFactor => 8
  | positionT => 9
  | color => 10
  | fog => 11
  | depth => 12
  | sample => 13

def ofCode? (n : Nat) : Option Usage := all.find? (·.code == n)

def word : Usage → String
  | position => "position"
  | blendWeight => "blendweight"
  | blendIndices => "blendindices"
  | normal => "normal"
  | pointSize => "psize"
  | texCoord => "texcoord"
  | tangent => "tangent"
  | binormal => "binormal"
  | tessFactor => "tessfactor"
  | positionT => "positiont"
  | color => "color"
  | fog => "fog"
  | depth => "depth"
  | sample => "sample"

def name : Usage → String
  | position => "Position"
  | blendWeight => "BlendWeight"
  | blendIndices => "BlendIndices"
  | normal => "Normal"
  | pointSize => "PointSize"
  | texCoord => "TexCoord"
  | tangent => "Tangent"
  | binormal => "Binormal"
  | tessFactor => "TessFactor"
  | positionT => "PositionT"
  | color => "Color"
  | fog => "Fog"
  | depth => "Depth"
  | sample => "Sample"

end Usage

/-- A usage together with its index, such as the third texture coordinate. -/
structure Semantic where
  usage : Usage
  index : Nat
  deriving DecidableEq, Repr, Inhabited

def Semantic.varyingName (s : Semantic) : String := s!"v_{s.usage.word}{s.index}"

end ShaderPipeline
