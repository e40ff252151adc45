import ShaderAssembly.Machine.Run
import ShaderAssembly.Rendering.Source
import ShaderAssembly.Proofs.Symbols.Interface
import ShaderAssembly.Proofs.Rendering.DotProduct
import ShaderAssembly.Proofs.Symbols.FirstTouch
import ShaderAssembly.Proofs.Machine.Frame
import ShaderAssembly.Proofs.Machine.MatrixProduct
import ShaderAssembly.Proofs.Machine.Constants
import ShaderAssembly.Proofs.Machine.Failure
import ShaderAssembly.Proofs.Rendering.TableName
import ShaderAssembly.Proofs.Machine.Footprint
import ShaderAssembly.Proofs.Machine.Hoisting
import ShaderAssembly.Proofs.Rendering.MatrixOrder
import ShaderAssembly.Proofs.Rendering.DeclarationName
import ShaderAssembly.Proofs.Rendering.OutputName
import ShaderAssembly.Proofs.Machine.Composition
import ShaderAssembly.Proofs.Symbols.Acceptance
import ShaderAssembly.Proofs.Rendering.Destination
import ShaderAssembly.Proofs.Rendering.SourceOutcome
import ShaderAssembly.Proofs.Machine.Executable
import ShaderAssembly.Proofs.Machine.Visibility
import ShaderAssembly.Proofs.Machine.KeptLanes
import ShaderAssembly.Proofs.Rendering.SwizzleText
import ShaderAssembly.Proofs.Rendering.Surface
import ShaderAssembly.Proofs.Rendering.Element
import ShaderAssembly.Proofs.Rendering.IntegerLiteral
import ShaderAssembly.Proofs.Rendering.Splat
import ShaderAssembly.Proofs.Binary32.Rounding
import ShaderAssembly.Proofs.Rendering.PositionalName
import ShaderAssembly.Proofs.Rendering.IntegerFolding
