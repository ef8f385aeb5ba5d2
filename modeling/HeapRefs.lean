import HeapRefs.Codec.Query
import HeapRefs.Object.Description
import HeapRefs.Proofs.Codec.RoundTrip
import HeapRefs.Proofs.Handle.Events
import HeapRefs.Session.Run
import HeapRefs.Settings
import HeapRefs.Proofs.Handle.Resolution
import HeapRefs.Proofs.Registry.Listing
import HeapRefs.Proofs.Session.Safepoint
import HeapRefs.Proofs.Session.Ledger
import HeapRefs.Proofs.Session.Registration
import HeapRefs.Proofs.Session.Attachment
import HeapRefs.Proofs.Session.Isolation
import HeapRefs.Proofs.Session.Publication
import HeapRefs.Proofs.Session.Assertions
import HeapRefs.Proofs.Session.Plain
import HeapRefs.Proofs.Session.Independence
import HeapRefs.Proofs.Handle.Collection
import HeapRefs.Proofs.Handle.Scope
import HeapRefs.Proofs.Codec.Reencoding
import HeapRefs.Proofs.Codec.Layout
import HeapRefs.Proofs.Codec.Acceptance
import HeapRefs.Proofs.Codec.Order
import HeapRefs.Proofs.Session.Soundness
import HeapRefs.Proofs.Handle.Addresses
import HeapRefs.Proofs.Handle.Substitution
import HeapRefs.Proofs.Handle.Bracket
import HeapRefs.Proofs.Handle.Reporting
import HeapRefs.Proofs.Session.Faults
import HeapRefs.Proofs.Settings.Grammar
import HeapRefs.Proofs.Session.Headers
import HeapRefs.Proofs.Session.Observation
import HeapRefs.Proofs.Session.Balance
import HeapRefs.Proofs.Session.Chronology
import HeapRefs.Proofs.Session.Freshness
import HeapRefs.Proofs.Handle.Creation
import HeapRefs.Proofs.Kind.Hierarchy
import HeapRefs.Proofs.Session.Counters
