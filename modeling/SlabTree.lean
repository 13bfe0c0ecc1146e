import SlabTree.Lock.Roster
import SlabTree.Proofs.Lock.Exclusion
import SlabTree.Proofs.Tree.Refinement
import SlabTree.Shared.Call
import SlabTree.Shared.Guards
import SlabTree.Tree.Verify
import SlabTree.Workload
import SlabTree.Proofs.Lock.Parking
import SlabTree.Proofs.Lock.Pursuit
import SlabTree.Proofs.Lock.Settled
import SlabTree.Proofs.Tree.Refusals
import SlabTree.Proofs.Tree.Inspection
import SlabTree.Proofs.Tree.Verification
import SlabTree.Proofs.Arena.Requests
import SlabTree.Proofs.Arena.Stack
import SlabTree.Proofs.Arena.Accounting
import SlabTree.Proofs.Lock.Priority
import SlabTree.Proofs.Shared.Runs
import SlabTree.Proofs.Shared.Linearization
import SlabTree.Proofs.Tree.Probing
import SlabTree.Proofs.Tree.Heights
import SlabTree.Proofs.Tree.Economy
import SlabTree.Proofs.Tree.Neighbours
import SlabTree.Proofs.Tree.Placement
import SlabTree.Proofs.Tree.Tour
import SlabTree.Proofs.Tree.Flaws
import SlabTree.Proofs.Tree.Observation
import SlabTree.Proofs.Tree.Bookkeeping
import SlabTree.Proofs.Tree.Circles
import SlabTree.Proofs.Tree.Resilience
import SlabTree.Proofs.Tree.Likeness
import SlabTree.Proofs.Tree.Sightings
import SlabTree.Proofs.Tree.Mirror
import SlabTree.Proofs.Arena.Words
import SlabTree.Proofs.Tree.Fields
import SlabTree.Proofs.Tree.Settling
import SlabTree.Proofs.Tree.Vacancy
