import ShaderPipeline.Device.Describe
import ShaderPipeline.Device.Session
import ShaderPipeline.Proofs.Bytecode.RoundTrip
import ShaderPipeline.Proofs.Bytecode.Tiling
import ShaderPipeline.Proofs.Device.Bindings
import ShaderPipeline.Proofs.Device.BumpLayout
import ShaderPipeline.Proofs.Device.ConstantArrays
import ShaderPipeline.Proofs.Device.Conversions
import ShaderPipeline.Proofs.Device.DrawState
import ShaderPipeline.Proofs.Device.FailedCompiles
import ShaderPipeline.Proofs.Device.FailedPasses
import ShaderPipeline.Proofs.Device.Offers
import ShaderPipeline.Proofs.Device.OwnRegisters
import ShaderPipeline.Proofs.Device.RegisterAccess
import ShaderPipeline.Proofs.Device.SelectorInputs
import ShaderPipeline.Proofs.Device.Uploads
import ShaderPipeline.Proofs.Effect.Preamble
import ShaderPipeline.Proofs.Effect.RawWrites
import ShaderPipeline.Proofs.Effect.RowLayout
import ShaderPipeline.Proofs.Effect.Uncached
import ShaderPipeline.Proofs.Glsl.Enclosed
import ShaderPipeline.Proofs.Layout.FlowFaults
import ShaderPipeline.Proofs.Layout.RelativeArrays
import ShaderPipeline.Proofs.Lowering.Metadata
import ShaderPipeline.Proofs.Lowering.Predication
import ShaderPipeline.Proofs.Lowering.Recency
import ShaderPipeline.Proofs.Preshader.Computed
import ShaderPipeline.Proofs.Preshader.Confined
import ShaderPipeline.Proofs.Preshader.SectionOrder
import ShaderPipeline.Proofs.Symbol.Unfolding
import ShaderPipeline.Proofs.Text.Literals
