import ScriptBoundary.Session.Inquiry
import ScriptBoundary.Proofs.Equations
import ScriptBoundary.Proofs.Desk
import ScriptBoundary.Proofs.Move
import ScriptBoundary.Proofs.Path
import ScriptBoundary.Proofs.Registry
import ScriptBoundary.Proofs.Account
import ScriptBoundary.Proofs.Handles
import ScriptBoundary.Proofs.Lifecycle
import ScriptBoundary.Proofs.Discipline
import ScriptBoundary.Proofs.Lending
import ScriptBoundary.Proofs.Work
import ScriptBoundary.Proofs.Purse
import ScriptBoundary.Proofs.Visit
import ScriptBoundary.Proofs.Conservation
import ScriptBoundary.Proofs.Ownership
import ScriptBoundary.Proofs.AsNative
import ScriptBoundary.Proofs.Mirror
import ScriptBoundary.Proofs.Client
import ScriptBoundary.Proofs.Refinement
import ScriptBoundary.Proofs.Growth
import ScriptBoundary.Proofs.Whereabouts
import ScriptBoundary.Proofs.Collection
import ScriptBoundary.Proofs.RoundTrip
import ScriptBoundary.Proofs.Handover
import ScriptBoundary.Proofs.Bridge
import ScriptBoundary.Proofs.Steps
import ScriptBoundary.Proofs.Relay
import ScriptBoundary.Proofs.Canonical
import ScriptBoundary.Proofs.Bookkeeping
import ScriptBoundary.Proofs.Aftermath
import ScriptBoundary.Proofs.Outcome
import ScriptBoundary.Proofs.GlobalNames
import ScriptBoundary.Proofs.Tables
import ScriptBoundary.Proofs.Teardown
import ScriptBoundary.Proofs.Evaluation
import ScriptBoundary.Proofs.Dispatch
import ScriptBoundary.Proofs.Rejection
import ScriptBoundary.Proofs.Refusal
import ScriptBoundary.Proofs.Pairs
import ScriptBoundary.Proofs.HostMemory
import ScriptBoundary.Proofs.Enrolment
import ScriptBoundary.Proofs.Procedure
import ScriptBoundary.Proofs.Borrowing
import ScriptBoundary.Proofs.KeyOrder
import ScriptBoundary.Proofs.Prototypes
import ScriptBoundary.Proofs.Enumeration
import ScriptBoundary.Proofs.Distinct
import ScriptBoundary.Proofs.Repetition
import ScriptBoundary.Proofs.Surrogates
import ScriptBoundary.Proofs.Mending
import ScriptBoundary.Proofs.Texts
import ScriptBoundary.Proofs.Numerals
import ScriptBoundary.Proofs.Elements
import ScriptBoundary.Proofs.Embedding
import ScriptBoundary.Proofs.Transplant
import ScriptBoundary.Proofs.Confinement
import ScriptBoundary.Proofs.Sane
import ScriptBoundary.Proofs.Tenant
import ScriptBoundary.Proofs.Sharing
import ScriptBoundary.Proofs.Replica
import ScriptBoundary.Proofs.Arrival
import ScriptBoundary.Proofs.Neighbours
import ScriptBoundary.Proofs.Sweep
import ScriptBoundary.Proofs.SideBySide
import ScriptBoundary.Proofs.Answering
import ScriptBoundary.Proofs.Lodgers
import ScriptBoundary.Proofs.HostCalls
import ScriptBoundary.Proofs.Isolation
import ScriptBoundary.Proofs.Limits
import ScriptBoundary.Proofs.Lookup
import ScriptBoundary.Proofs.Storing
import ScriptBoundary.Proofs.StoreLaws
import ScriptBoundary.Proofs.Enclosure.Machine
import ScriptBoundary.Proofs.Reading
import ScriptBoundary.Proofs.Orderly
import ScriptBoundary.Proofs.Grounded
import ScriptBoundary.Proofs.Housekeeping
import ScriptBoundary.Proofs.Reached
