import Stencil.Cache.Trace
import Stencil.Helper.Family
import Stencil.Proofs.Agreement
import Stencil.Proofs.Balance
import Stencil.Proofs.CompletionOrder
import Stencil.Proofs.Deferred
import Stencil.Proofs.Escaping
import Stencil.Proofs.Eviction
import Stencil.Proofs.ExposedBlocks
import Stencil.Proofs.Flushes
import Stencil.Proofs.Generations
import Stencil.Proofs.Globals
import Stencil.Proofs.HelperCalls
import Stencil.Proofs.Histories
import Stencil.Proofs.LibraryRenders
import Stencil.Proofs.Plans
import Stencil.Proofs.Printing
import Stencil.Proofs.Privacy
import Stencil.Proofs.Refusals
import Stencil.Proofs.Settings
import Stencil.Proofs.SilentHelpers
import Stencil.Proofs.Snapshot
import Stencil.Proofs.Sources
import Stencil.Proofs.UnknownHelper
import Stencil.Proofs.Walks
import Stencil.Session
