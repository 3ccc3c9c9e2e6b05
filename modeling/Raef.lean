import Raef.Lib.Text
import Raef.Lib.Num
import Raef.Lib.Clock
import Raef.Lib.Json
import Raef.Lib.Sha256
import Raef.Lib.Txn
import Raef.Lib.Program
import Raef.Lib.Paging
import Raef.Lib.Groups
import Raef.Model.Status
import Raef.Model.Planner
import Raef.Model.Context
import Raef.Model.Store
import Raef.Model.Services
import Raef.Model.Journal
import Raef.Model.Logging
import Raef.Model.Strategy
import Raef.Model.Target
import Raef.Model.World
import Raef.Model.TxnManager
import Raef.Model.Recovery
import Raef.Model.Verifier
import Raef.Model.Audit
import Raef.Model.CheckHelper
import Raef.Model.Payloads
import Raef.Model.Mirror
import Raef.Model.Bundle
import Raef.Model.Evaluation
import Raef.Proofs.Decode
import Raef.Proofs.Effects
import Raef.Proofs.Records
import Raef.Proofs.Sound
import Raef.Proofs.Plans
import Raef.Proofs.Total
import Raef.Proofs.Passes
import Raef.Proofs.Script
import Raef.Proofs.LogFirst
import Raef.Proofs.Lifecycle
import Raef.Proofs.Audited
import Raef.Proofs.Final
import Raef.Proofs.NoRefire
import Raef.Proofs.PlanRuns
import Raef.Proofs.Wedge
import Raef.Proofs.Scheduler
import Raef.Proofs.Isolation
import Raef.Proofs.Changes
import Raef.Proofs.InSync
import Raef.Proofs.Replay
import Raef.Proofs.Transcript
import Raef.Proofs.Unresolved
import Raef.Proofs.Window
import Raef.Proofs.Heard
import Raef.Proofs.Idempotent
import Raef.Proofs.PlanRows
import Raef.Proofs.PlanFrame
import Raef.Proofs.PlanPersisted
import Raef.Proofs.PlanPointer
import Raef.Proofs.CheckRecovery
import Raef.Proofs.Verified
import Raef.Proofs.Offload
import Raef.Proofs.SoftMirror
import Raef.Proofs.Bundle
import Raef.Proofs.DryRun
import Raef.Proofs.Paging
import Raef.Proofs.Evaluation
import Raef.Proofs.Attempts
import Raef.Proofs.Receipts
import Raef.Model.PlanText
import Raef.Proofs.PlanText
import Raef.Proofs.Handoffs
import Raef.Proofs.Returned
import Raef.Proofs.Issued
import Raef.Proofs.Apart
import Raef.Proofs.Service
import Raef.Proofs.Held
import Raef.Proofs.Absent
import Raef.Proofs.Proved
import Raef.Proofs.Skipped
