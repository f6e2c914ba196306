import DebrisDisk.Scalar.Binary64
import DebrisDisk.Run.Codec
import DebrisDisk.Proofs.Special.Refusal
import DebrisDisk.Proofs.Reporting
import DebrisDisk.Proofs.Driving
import DebrisDisk.Proofs.Books
import DebrisDisk.Proofs.Construction
import DebrisDisk.Proofs.Competition
import DebrisDisk.Proofs.Exact.Horizon
import DebrisDisk.Proofs.Exact.Retirement
import DebrisDisk.Proofs.Exact.Decay
import DebrisDisk.Proofs.Exact.Exposure
import DebrisDisk.Proofs.Exact.Lag
import DebrisDisk.Proofs.Laws
import DebrisDisk.Proofs.Tolerance
import DebrisDisk.Proofs.Interchange
import DebrisDisk.Proofs.Switches
import DebrisDisk.Proofs.Draws
import DebrisDisk.Proofs.ConfigDocuments
import DebrisDisk.Proofs.Exact.Fragments
import DebrisDisk.Proofs.Records
import DebrisDisk.Proofs.Exact.Depletion
import DebrisDisk.Proofs.Exact.BlowoutSize
import DebrisDisk.Proofs.Exact.Attenuation
import DebrisDisk.Proofs.Exact.Interpolation
import DebrisDisk.Proofs.Exact.LocalFit
import DebrisDisk.Proofs.Exact.Cooling
import DebrisDisk.Proofs.PressureLadder
import DebrisDisk.Proofs.Exact.CoolingTimes
import DebrisDisk.Proofs.Exact.Opening
import DebrisDisk.Proofs.Exact.TableEnds
import DebrisDisk.Proofs.Exact.VaporFraction
import DebrisDisk.Proofs.SupplyWindows
import DebrisDisk.Proofs.Exact.SurfaceEnergy
import DebrisDisk.Proofs.Exact.Audit
import DebrisDisk.Proofs.Exact.AutomaticSteps
import DebrisDisk.Proofs.Exact.LogSpacing
