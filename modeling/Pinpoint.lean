import Pinpoint.Main
import Pinpoint.Proofs.Breaks
import Pinpoint.Proofs.Lines
import Pinpoint.Proofs.Bounds
import Pinpoint.Proofs.Shown
import Pinpoint.Proofs.CaretLine
import Pinpoint.Proofs.Runs
import Pinpoint.Proofs.Rendering
import Pinpoint.Proofs.Shapes
import Pinpoint.Proofs.BareLine
import Pinpoint.Proofs.Columns
import Pinpoint.Proofs.Colors
import Pinpoint.Proofs.History
import Pinpoint.Proofs.Loading
import Pinpoint.Proofs.Policies
import Pinpoint.Proofs.Showing
import Pinpoint.Proofs.Calls
import Pinpoint.Proofs.Trusted
import Pinpoint.Proofs.Segments
import Pinpoint.Proofs.Drawing
import Pinpoint.Proofs.Failures
import Pinpoint.Proofs.Concatenation
import Pinpoint.Proofs.LineText
import Pinpoint.Proofs.Blocks
import Pinpoint.Proofs.Interruptions
import Pinpoint.Proofs.StylePaths
import Pinpoint.Proofs.Totals
import Pinpoint.Proofs.Carriers
import Pinpoint.Proofs.Ranges
import Pinpoint.Proofs.Nearest
import Pinpoint.Proofs.Highlights
import Pinpoint.Proofs.PositionOrder
