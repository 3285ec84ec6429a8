import PullConsumer.Broker.Desk
import PullConsumer.Event.Board
import PullConsumer.Handler.Script
import PullConsumer.Observer.Desk
import PullConsumer.Proofs.Broker.Callers
import PullConsumer.Proofs.Broker.Faults
import PullConsumer.Proofs.Broker.Filters
import PullConsumer.Proofs.Message.Headers
import PullConsumer.Proofs.Message.Trace
import PullConsumer.Proofs.Meters.Means
import PullConsumer.Proofs.Meters.Sums
import PullConsumer.Proofs.Observer.Isolation
import PullConsumer.Proofs.Retry.Cancellations
import PullConsumer.Proofs.Retry.Reports
import PullConsumer.Proofs.Slots
import PullConsumer.Proofs.Subject
import PullConsumer.Proofs.Supervisor.Admission
import PullConsumer.Proofs.Supervisor.Dispatches
import PullConsumer.Proofs.Supervisor.Drain
import PullConsumer.Proofs.Supervisor.Echoes
import PullConsumer.Proofs.Supervisor.FanOut
import PullConsumer.Proofs.Supervisor.Grace
import PullConsumer.Proofs.Supervisor.Ledger
import PullConsumer.Proofs.Supervisor.LifeCycle
import PullConsumer.Proofs.Supervisor.Returns
import PullConsumer.Proofs.Supervisor.Silence
import PullConsumer.Proofs.Supervisor.SingleFile
import PullConsumer.Proofs.Supervisor.Stops
import PullConsumer.Proofs.Supervisor.Turns
import PullConsumer.Retry.Timeline
import PullConsumer.Slots.Desk
import PullConsumer.Supervisor.Account
import PullConsumer.Supervisor.Session
