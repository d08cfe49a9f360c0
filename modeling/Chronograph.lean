import Chronograph.Script.Live
import Chronograph.Script.Run
import Chronograph.Proofs.Measurement
import Chronograph.Proofs.Stopwatch.History
import Chronograph.Proofs.Elapsed.Order
import Chronograph.Proofs.Stopwatch.Growth
import Chronograph.Proofs.Script.Alike
import Chronograph.Proofs.Script.Bench
import Chronograph.Proofs.Script.Renewal
import Chronograph.Proofs.Script.Independence
import Chronograph.Proofs.Measurement.Method
import Chronograph.Proofs.Stopwatch.Shift
import Chronograph.Proofs.Script.Rising
import Chronograph.Proofs.Script.Shift
import Chronograph.Proofs.Script.Plan
import Chronograph.Proofs.Script.Plan.Nested
import Chronograph.Proofs.Script.Plan.Shift
import Chronograph.Proofs.Script.Plan.Transparent
import Chronograph.Proofs.Script.Refusal
import Chronograph.Proofs.Measurement.Round
import Chronograph.Proofs.Script.Plan.Course
import Chronograph.Proofs.Script.Plan.Levels
import Chronograph.Proofs.Script.Plan.Completed
import Chronograph.Proofs.Script.Plan.Ticks
import Chronograph.Proofs.Elapsed.Range
import Chronograph.Proofs.Measurement.Unread
import Chronograph.Proofs.Stopwatch.During
import Chronograph.Proofs.Stopwatch.Durations
import Chronograph.Proofs.Elapsed.Views
import Chronograph.Proofs.Figure.Written
import Chronograph.Proofs.TimeUnit.Ladder
import Chronograph.Proofs.Figure.Again
import Chronograph.Proofs.Figure.Order
import Chronograph.Proofs.Script.Plan.Compiled
