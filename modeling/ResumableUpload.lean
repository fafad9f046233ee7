import ResumableUpload.Channel.Timer
import ResumableUpload.Main
import ResumableUpload.Proofs.Bookkeeping
import ResumableUpload.Proofs.Cancellation
import ResumableUpload.Proofs.Commutation
import ResumableUpload.Proofs.Delivery
import ResumableUpload.Proofs.InFlight
import ResumableUpload.Proofs.Integrity
import ResumableUpload.Proofs.Patience
import ResumableUpload.Proofs.Pausing
import ResumableUpload.Proofs.Readiness
import ResumableUpload.Proofs.Respelling
import ResumableUpload.Proofs.Resumption
import ResumableUpload.Proofs.Retelling
import ResumableUpload.Proofs.SavedSettings
import ResumableUpload.Proofs.ServerRoundTrip
import ResumableUpload.Proofs.Slices
import ResumableUpload.Proofs.Staleness
import ResumableUpload.Proofs.TimerFates
import ResumableUpload.Proofs.Verbatim
import ResumableUpload.Proofs.Violations
import ResumableUpload.Settings.Json
import ResumableUpload.Uploader.Rehearsal
