/-!
# Names of states

Effects name states and the values of states by number. A catalogue lists the names in the order
of the numbers. Render states are counted from zero, and the two slots that bind shaders follow
after a gap. A number without a name is kept as it is.
-/

namespace ShaderPipeline.Effect

/-- The names of a family of states or values, with their numbers. -/
structure Catalogue where
  title : String
  entries : List (String × Nat)
  deriving DecidableEq, Repr

namespace Catalogue

def name? (c : Catalogue) (n : Nat) : Option String := (c.entries.find? (·.2 == n)).map (·.1)

end Catalogue

def renderStates : Catalogue :=
  ⟨"RenderStateType",
    [("ZEnable", 0), ("FillMode", 1), ("ShadeMode", 2), ("ZWriteEnable", 3),
      ("AlphaTestEnable", 4), ("LastPixel", 5), ("SrcBlend", 6), ("DestBlend", 7),
      ("CullMode", 8), ("ZFunc", 9), ("AlphaRef", 10), ("AlphaFunc", 11), ("DitherEnable", 12),
      ("AlphaBlendEnable", 13), ("FogEnable", 14), ("SpecularEnable", 15), ("FogColor", 16),
      ("FogTableMode", 17), ("FogStart", 18), ("FogEnd", 19), ("FogDensity", 20),
      ("RangeFogEnable", 21), ("StencilEnable", 22), ("StencilFail", 23), ("StencilZFail", 24),
      ("StencilPass", 25), ("StencilFunc", 26), ("StencilRef", 27), ("StencilMask", 28),
      ("StencilWriteMask", 29), ("TextureFactor", 30), ("Wrap0", 31), ("Wrap1", 32),
      ("Wrap2", 33), ("Wrap3", 34), ("Wrap4", 35), ("Wrap5", 36), ("Wrap6", 37), ("Wrap7", 38),
      ("Wrap8", 39), ("Wrap9", 40), ("Wrap10", 41), ("Wrap11", 42), ("Wrap12", 43),
      ("Wrap13", 44), ("Wrap14", 45), ("Wrap15", 46), ("Clipping", 47), ("Lighting", 48),
      ("Ambient", 49), ("FogVertexMode", 50), ("ColorVertex", 51), ("LocalViewer", 52),
      ("NormalizeNormals", 53), ("DiffuseMaterialSource", 54), ("SpecularMaterialSource", 55),
      ("AmbientMaterialSource", 56), ("EmissiveMaterialSource", 57), ("VertexBlend", 58),
      ("ClipPlaneEnable", 59), ("PointSize", 60), ("PointSizeMin", 61),
      ("PointSpriteEnable", 62), ("PointScaleEnable", 63), ("PointScaleA", 64),
      ("PointScaleB", 65), ("PointScaleC", 66), ("MultisampleAntialias", 67),
      ("MultisampleMask", 68), ("PatchEdgeStyle", 69), ("DebugMonitorToken", 70),
      ("PointSizeMax", 71), ("IndexedVertexBlendEnable", 72), ("ColorWriteEnable", 73),
      ("TweenFactor", 74), ("BlendOp", 75), ("PositionDegree", 76), ("NormalDegree", 77),
      ("ScissorTestEnable", 78), ("SlopeScaleDepthBias", 79), ("AntialiasedLineEnable", 80),
      ("MinTessellationLevel", 81), ("MaxTessellationLevel", 82), ("AdaptiveTessX", 83),
      ("AdaptiveTessY", 84), ("AdaptiveTessZ", 85), ("AdaptiveTessW", 86),
      ("EnableAdaptiveTessellation", 87), ("TwoSidedStencilMode", 88), ("CcwStencilFail", 89),
      ("CcwStencilZFail", 90), ("CcwStencilPass", 91), ("CcwStencilFunc", 92),
      ("ColorWriteEnable1", 93), ("ColorWriteEnable2", 94), ("ColorWriteEnable3", 95),
      ("BlendFactor", 96), ("SrgbWriteEnable", 97), ("DepthBias", 98),
      ("SeparateAlphaBlendEnable", 99), ("SrcBlendAlpha", 100), ("DestBlendAlpha", 101),
      ("BlendOpAlpha", 102), ("VertexShader", 146), ("PixelShader", 147)]⟩

def samplerStates : Catalogue :=
  ⟨"SamplerStateType",
    [("Unknown0", 0), ("Unknown1", 1), ("Unknown2", 2), ("Unknown3", 3), ("Texture", 4),
      ("AddressU", 5), ("AddressV", 6), ("AddressW", 7), ("BorderColor", 8), ("MagFilter", 9),
      ("MinFilter", 10), ("MipFilter", 11), ("MipMapLodBias", 12), ("MaxMipLevel", 13),
      ("MaxAnisotropy", 14), ("SrgbTexture", 15), ("ElementIndex", 16), ("DmapOffset", 17)]⟩

def depthBuffers : Catalogue :=
  ⟨"ZBufferType",
    [("False", 0), ("True", 1), ("UseW", 2)]⟩

def fillModes : Catalogue :=
  ⟨"FillMode",
    [("Point", 1), ("Wireframe", 2), ("Solid", 3)]⟩

def shadeModes : Catalogue :=
  ⟨"ShadeMode",
    [("Flat", 1), ("Gouraud", 2), ("Phong", 3)]⟩

def blendFactors : Catalogue :=
  ⟨"BlendMode",
    [("Zero", 1), ("One", 2), ("SrcColor", 3), ("InvSrcColor", 4), ("SrcAlpha", 5),
      ("InvSrcAlpha", 6), ("DestAlpha", 7), ("InvDestAlpha", 8), ("DestColor", 9),
      ("InvDestColor", 10), ("SrcAlphaSat", 11), ("BothSrcAlpha", 12), ("BothInvSrcAlpha", 13),
      ("BlendFactor", 14), ("InvBlendFactor", 15), ("SrcColor2", 16), ("InvSrcColor2", 17)]⟩

def cullModes : Catalogue :=
  ⟨"CullMode",
    [("None", 1), ("Cw", 2), ("Ccw", 3)]⟩

def comparisons : Catalogue :=
  ⟨"CompareFunc",
    [("Never", 1), ("Less", 2), ("Equal", 3), ("LessEqual", 4), ("Greater", 5), ("NotEqual", 6),
      ("GreaterEqual", 7), ("Always", 8)]⟩

def fogModes : Catalogue :=
  ⟨"FogMode",
    [("None", 0), ("Exp", 1), ("Exp2", 2), ("Linear", 3)]⟩

def stencilOperations : Catalogue :=
  ⟨"StencilOp",
    [("Keep", 1), ("Zero", 2), ("Replace", 3), ("IncrSat", 4), ("DecrSat", 5), ("Invert", 6),
      ("Incr", 7), ("Decr", 8)]⟩

def colorSources : Catalogue :=
  ⟨"MaterialColorSource",
    [("Material", 0), ("Color1", 1), ("Color2", 2)]⟩

def vertexBlends : Catalogue :=
  ⟨"VertexBlendFlags",
    [("Disable", 0), ("Weights1", 1), ("Weights2", 2), ("Weights3", 3), ("Tweening", 255),
      ("Weights0", 256)]⟩

def edgeStyles : Catalogue :=
  ⟨"PatchedEdgeStyle",
    [("Discrete", 0), ("Continuous", 1)]⟩

def debugMonitors : Catalogue :=
  ⟨"DebugMonitorToken",
    [("Enable", 0), ("Disable", 1)]⟩

def blendOperations : Catalogue :=
  ⟨"BlendOp",
    [("Add", 1), ("Subtract", 2), ("RevSubtract", 3), ("Min", 4), ("Max", 5)]⟩

def degrees : Catalogue :=
  ⟨"DegreeType",
    [("Linear", 1), ("Quadratic", 2), ("Cubic", 3), ("Quintic", 5)]⟩

def textureAddresses : Catalogue :=
  ⟨"TextureAddress",
    [("Wrap", 1), ("Mirror", 2), ("Clamp", 3), ("Border", 4), ("MirrorOnce", 5)]⟩

def textureFilters : Catalogue :=
  ⟨"TextureFilterType",
    [("None", 0), ("Point", 1), ("Linear", 2), ("Anisotropic", 3), ("PyramidalQuad", 4),
      ("GaussianQuad", 5), ("ConvolutionMono", 6)]⟩

def catalogues : List Catalogue :=
  [renderStates, samplerStates, depthBuffers, fillModes, shadeModes, blendFactors, cullModes,
    comparisons, fogModes, stencilOperations, colorSources, vertexBlends, edgeStyles,
    debugMonitors, blendOperations, degrees, textureAddresses, textureFilters]

def vertexShaderState : Nat := 146

def pixelShaderState : Nat := 147

def textureState : Nat := 4

def bindsShader (n : Nat) : Bool := n == vertexShaderState || n == pixelShaderState

end ShaderPipeline.Effect
