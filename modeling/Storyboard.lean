import Storyboard.Main
import Storyboard.Proofs.Compile.InputFiles
import Storyboard.Proofs.Compile.ReadBack
import Storyboard.Proofs.Compile.WellFormed
import Storyboard.Proofs.Graph.Caption
import Storyboard.Proofs.Number.Exact
import Storyboard.Proofs.Number.Numeral
import Storyboard.Proofs.Number.Shortest
import Storyboard.Proofs.Spec.Finite
import Storyboard.Proofs.Spec.Sound
import Storyboard.Proofs.Spec.Timeline
import Storyboard.Proofs.Compile.Offsets
import Storyboard.Proofs.Compile.Timeline
import Storyboard.Proofs.Compile.Total
import Storyboard.Proofs.Compile.Failure
import Storyboard.Proofs.Number.Printed
import Storyboard.Proofs.Spec.NonFinite
import Storyboard.Proofs.Spec.Refusal
import Storyboard.Proofs.Spec.RoundTrip
import Storyboard.Proofs.Compile.OpenWindows
import Storyboard.Proofs.Compile.Canvas
import Storyboard.Proofs.Compile.Visibility
import Storyboard.Proofs.Compile.Session
import Storyboard.Proofs.Compile.Append
import Storyboard.Proofs.Compile.Carried
import Storyboard.Proofs.Compile.Audibility
import Storyboard.Proofs.Program.Frame
import Storyboard.Proofs.Spec.JsonFile
import Storyboard.Proofs.Graph.Quotes
import Storyboard.Proofs.Graph.OptionValues
import Storyboard.Proofs.Color
import Storyboard.Proofs.Value.NumberText
import Storyboard.Proofs.Summary
import Storyboard.Proofs.Thumbnail
import Storyboard.Proofs.Compile.Colors
import Storyboard.Proofs.Number.Literal
import Storyboard.Proofs.Value.RateLiteral
import Storyboard.Proofs.Spec.Spellings
import Storyboard.Proofs.Shell
import Storyboard.Proofs.Path
import Storyboard.Proofs.Color.Drawn
import Storyboard.Proofs.Thumbnail.Card
import Storyboard.Proofs.Thumbnail.Commands
import Storyboard.Proofs.Number.ReadBack
import Storyboard.Proofs.Json.Number
import Storyboard.Proofs.Json.Written
import Storyboard.Proofs.Program.Folders
import Storyboard.Proofs.Metadata
