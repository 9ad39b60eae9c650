import SlabAllocator.Allocator
import SlabAllocator.Host.Fixed
import SlabAllocator.Host.Heap
import SlabAllocator.Host.Kernel
import SlabAllocator.Host.Quota
import SlabAllocator.Client.Session
import SlabAllocator.Proofs.Aliasing
import SlabAllocator.Proofs.Contract
import SlabAllocator.Proofs.Contents
import SlabAllocator.Proofs.Accounting
import SlabAllocator.Proofs.Unfailing
import SlabAllocator.Proofs.FirstFit
import SlabAllocator.Proofs.Rejection
import SlabAllocator.Proofs.Teardown
import SlabAllocator.Proofs.Discipline
import SlabAllocator.Proofs.Denial
import SlabAllocator.Proofs.Balance
import SlabAllocator.Proofs.Routing
import SlabAllocator.Proofs.Shedding
import SlabAllocator.Proofs.Independence
import SlabAllocator.Proofs.Demand
import SlabAllocator.Proofs.Draining
import SlabAllocator.Proofs.Twins
import SlabAllocator.Proofs.Idle
import SlabAllocator.Proofs.Resizing
import SlabAllocator.Proofs.Platforms
import SlabAllocator.Proofs.Interchange
import SlabAllocator.Proofs.Lookup
import SlabAllocator.Proofs.Reclaim
import SlabAllocator.Proofs.Fitting
import SlabAllocator.Proofs.Cadence
import SlabAllocator.Proofs.Occupancy
import SlabAllocator.Proofs.Traversal
import SlabAllocator.Proofs.Quota
import SlabAllocator.Proofs.Reading
