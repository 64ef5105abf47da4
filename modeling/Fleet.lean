import Fleet.Launcher
import Fleet.CommandLine.LogFilter
import Fleet.Main
import Fleet.Proofs.Placement.Partition
import Fleet.Proofs.Launch.Endpoints
import Fleet.Proofs.Worker.Line
import Fleet.Proofs.Run.Accounting
import Fleet.Proofs.Run.Shutdown
import Fleet.Proofs.Run.Halting
import Fleet.Proofs.Run.Totals
import Fleet.Proofs.Launch.Preview
import Fleet.Proofs.Settings.Precedence
import Fleet.Proofs.Launch.Admission
import Fleet.Proofs.Launch.LogFiles
import Fleet.Proofs.Placement.Load
import Fleet.Proofs.Run.Serving
import Fleet.Proofs.Run.Varying
import Fleet.Proofs.Run.Watching
import Fleet.Proofs.Run.LeftBehind
import Fleet.Proofs.Launch.Refusal
import Fleet.Proofs.Launch.Strictness
import Fleet.Proofs.Launch.Extra
import Fleet.Proofs.Placement.Rounds
import Fleet.Proofs.Worker.Orders
import Fleet.Proofs.Launch.Lockstep
import Fleet.Proofs.Run.Splitting
import Fleet.Proofs.Run.LostSender
import Fleet.Proofs.Json.Reading
import Fleet.Proofs.Launch.PlanFormats
import Fleet.Proofs.Run.Chapters
import Fleet.Proofs.System.Places
import Fleet.Proofs.Worker.Growing
import Fleet.Proofs.Settings.Document
import Fleet.Proofs.Launch.Ports
import Fleet.Proofs.Shell.Reading
import Fleet.Proofs.Worker.Pasting
