import ShadowCatalog.Main
import ShadowCatalog.Memory.World
import ShadowCatalog.Settings.Telemetry
import ShadowCatalog.Proofs.History
import ShadowCatalog.Proofs.Reconcile.Recovery
import ShadowCatalog.Proofs.Reconcile.Stability
import ShadowCatalog.Proofs.Reconcile.Succession
import ShadowCatalog.Proofs.Reconcile.Convergence
import ShadowCatalog.Proofs.Reconcile.Isolation
import ShadowCatalog.Proofs.Reconcile.Accounting
import ShadowCatalog.Proofs.Browse.Meaning
import ShadowCatalog.Proofs.Browse.Independence
import ShadowCatalog.Proofs.Browse.UpToDate
import ShadowCatalog.Proofs.Browse.Consistency
import ShadowCatalog.Proofs.Browse.AfterRename
import ShadowCatalog.Proofs.Reconcile.Matching
import ShadowCatalog.Proofs.Continuity
import ShadowCatalog.Proofs.Browse.Reordering
import ShadowCatalog.Proofs.StableMerge
import ShadowCatalog.Proofs.Search.Containment
import ShadowCatalog.Proofs.Browse.LabelLookup
import ShadowCatalog.Proofs.ListingOrder
import ShadowCatalog.Proofs.Browse.Agreement
import ShadowCatalog.Proofs.ManualOrder
import ShadowCatalog.Proofs.Browse.Acceptance
import ShadowCatalog.Proofs.Search.Respacing
import ShadowCatalog.Proofs.Search.RoundTrip
import ShadowCatalog.Proofs.Browse.Arguments
import ShadowCatalog.Proofs.Interrupt
import ShadowCatalog.Proofs.Memory.Bookkeeping
import ShadowCatalog.Proofs.Browse.IdentifierLimit
import ShadowCatalog.Proofs.Json.RoundTrip
import ShadowCatalog.Proofs.Problem
import ShadowCatalog.Proofs.Browse.NameSearch
