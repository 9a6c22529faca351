import CubeTrainer.Catalog.Text
import CubeTrainer.Trainer
import CubeTrainer.Twist.Text
import CubeTrainer.Proofs.Notation.RoundTrip
import CubeTrainer.Proofs.Notation.Cut
import CubeTrainer.Proofs.Notation.Composition
import CubeTrainer.Proofs.Notation.Counts
import CubeTrainer.Proofs.Notation.Repetition
import CubeTrainer.Proofs.Store.Records
import CubeTrainer.Proofs.Store.Saving
import CubeTrainer.Proofs.Catalog.Entries
import CubeTrainer.Proofs.Catalog.RoundTrip
import CubeTrainer.Proofs.Catalog.Building
import CubeTrainer.Proofs.Player.Standing
import CubeTrainer.Proofs.Player.Consistency
import CubeTrainer.Proofs.Player.Saves
import CubeTrainer.Proofs.Player.Reopening
import CubeTrainer.Proofs.Player.Edits
import CubeTrainer.Proofs.Player.Flight
import CubeTrainer.Proofs.Player.Locking
import CubeTrainer.Proofs.Player.Opening
import CubeTrainer.Proofs.Player.PlayEnd
import CubeTrainer.Proofs.Player.PlayThrough
import CubeTrainer.Proofs.Previews.Slots
import CubeTrainer.Proofs.Trainer.Freshness
import CubeTrainer.Proofs.Trainer.Refusals
import CubeTrainer.Proofs.Trainer.Draining
import CubeTrainer.Proofs.Trainer.Accounting
import CubeTrainer.Proofs.Trainer.Declined
