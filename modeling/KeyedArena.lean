import KeyedArena.Arena.Batch
import KeyedArena.Arena.Cursor
import KeyedArena.Arena.Sound
import KeyedArena.Registry
import KeyedArena.Proofs.Slots.Entries
import KeyedArena.Proofs.Slots.Filing
import KeyedArena.Proofs.Slots.Sweep
import KeyedArena.Proofs.Arena.Steps
import KeyedArena.Proofs.Arena.Soundness
import KeyedArena.Proofs.Binary64.Nearest
import KeyedArena.Proofs.Sizing
import KeyedArena.Proofs.Session.Runs
import KeyedArena.Proofs.Session.Representation
import KeyedArena.Proofs.Session.Refinement
import KeyedArena.Proofs.Arena.Occupancy
import KeyedArena.Proofs.Session.Capacity
import KeyedArena.Proofs.Session.Stalling
import KeyedArena.Proofs.Session.Refusals
import KeyedArena.Proofs.Session.History
import KeyedArena.Proofs.Session.Churn
import KeyedArena.Proofs.Session.Presizing
import KeyedArena.Proofs.Slots.Shifts
import KeyedArena.Proofs.Arena.Removal
import KeyedArena.Proofs.Slots.Exchange
import KeyedArena.Proofs.Slots.Displacement
import KeyedArena.Proofs.Arena.Undoing
import KeyedArena.Proofs.Session.Recovery
import KeyedArena.Proofs.Session.Enumeration
import KeyedArena.Proofs.Slots.Rebuilding
import KeyedArena.Proofs.Arena.Withdrawals
import KeyedArena.Proofs.Arena.Growth
import KeyedArena.Proofs.Columns.Table
import KeyedArena.Proofs.Columns.Views
import KeyedArena.Proofs.Columns.Walks
import KeyedArena.Proofs.Columns.Sweeps
import KeyedArena.Proofs.Columns.Faultless
import KeyedArena.Proofs.Sizing.Exact
import KeyedArena.Proofs.Arena.Journal
import KeyedArena.Proofs.Slots.Inspection
import KeyedArena.Proofs.Columns.Inspection
import KeyedArena.Proofs.Key.Scattering
