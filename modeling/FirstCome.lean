import FirstCome.Main
import FirstCome.Progress.Document
import FirstCome.Fault.Document
import FirstCome.Proofs.Placement
import FirstCome.Proofs.Tick
import FirstCome.Proofs.Start
import FirstCome.Proofs.Checked
import FirstCome.Proofs.Sound
import FirstCome.Proofs.Budget
import FirstCome.Proofs.History
import FirstCome.Proofs.Ending
import FirstCome.Proofs.Causality
import FirstCome.Proofs.KillEffect
import FirstCome.Proofs.Forecast
import FirstCome.Proofs.CpuOnly
import FirstCome.Proofs.Foretold
import FirstCome.Proofs.Timeline
import FirstCome.Proofs.Overtaking
import FirstCome.Proofs.Stretches
import FirstCome.Proofs.Turnaround
import FirstCome.Proofs.Counters
import FirstCome.Proofs.Ledger
import FirstCome.Proofs.Conservation
import FirstCome.Proofs.Departures
import FirstCome.Proofs.Mirror
import FirstCome.Proofs.FirstKills
import FirstCome.Proofs.Renaming
import FirstCome.Proofs.Growth
import FirstCome.Proofs.Lifecycle
import FirstCome.Proofs.Idle
import FirstCome.Proofs.Rounding
import FirstCome.Proofs.Summary
import FirstCome.Proofs.Makespan
import FirstCome.Proofs.IoWaits
import FirstCome.Proofs.Grammar
import FirstCome.Proofs.Canonical
import FirstCome.Proofs.Blame
import FirstCome.Proofs.Spelling
import FirstCome.Proofs.Encoding
import FirstCome.Proofs.Documents
import FirstCome.Proofs.Lookup
import FirstCome.Proofs.Table
import FirstCome.Proofs.TableReadBack
import FirstCome.Proofs.TableLength
import FirstCome.Proofs.Comments
import FirstCome.Proofs.Firing
import FirstCome.Proofs.QueueHistory
import FirstCome.Proofs.Answer
