import CallbackBridge.Main
import CallbackBridge.Log.History
import CallbackBridge.Run.Conduct
import CallbackBridge.Proofs.Pins
import CallbackBridge.Proofs.OneShot
import CallbackBridge.Proofs.Capacity
import CallbackBridge.Proofs.Attachments
import CallbackBridge.Proofs.Routing
import CallbackBridge.Proofs.Listeners
import CallbackBridge.Proofs.Handover
import CallbackBridge.Proofs.Custody
import CallbackBridge.Proofs.Failures
import CallbackBridge.Proofs.Accounts
import CallbackBridge.Proofs.Rejections
import CallbackBridge.Proofs.Standin.Runs
import CallbackBridge.Proofs.Transparency
import CallbackBridge.Proofs.Reports.Repeats
import CallbackBridge.Proofs.Unnoticed
import CallbackBridge.Proofs.Commutation
import CallbackBridge.Proofs.Limiting
import CallbackBridge.Proofs.Startup
import CallbackBridge.Proofs.Owners
import CallbackBridge.Proofs.CommandLine
import CallbackBridge.Proofs.Helper.Boundary
import CallbackBridge.Proofs.Helper.Watching
import CallbackBridge.Proofs.Filtering
