import Carousel.Bench.Step
import Carousel.Config.Reader
import Carousel.Failure.Label
import Carousel.Ring.Unread
import Carousel.Transfer.Valid
import Carousel.Proofs.Window
import Carousel.Proofs.Laps
import Carousel.Proofs.Pull
import Carousel.Proofs.Queue
import Carousel.Proofs.Record
import Carousel.Proofs.Transcript
import Carousel.Proofs.Intake
import Carousel.Proofs.Pulling
import Carousel.Proofs.ReadFrom
import Carousel.Proofs.Dispatch
import Carousel.Proofs.Supply
import Carousel.Proofs.Feeding
import Carousel.Proofs.Offers
import Carousel.Proofs.Undo
import Carousel.Proofs.Passthrough
import Carousel.Proofs.Invariant
import Carousel.Proofs.Review
import Carousel.Proofs.Pipeline
import Carousel.Proofs.Drain
import Carousel.Proofs.Exchange
import Carousel.Proofs.Delimited
import Carousel.Proofs.Attempts
import Carousel.Proofs.Account
import Carousel.Proofs.Rotation
import Carousel.Proofs.Landing
import Carousel.Proofs.Refusal
import Carousel.Proofs.Checked.Command
import Carousel.Proofs.StepBack
import Carousel.Proofs.Erasure
import Carousel.Proofs.Sources
import Carousel.Proofs.Loops
import Carousel.Proofs.Causes
import Carousel.Proofs.Document
import Carousel.Proofs.Vacancy
