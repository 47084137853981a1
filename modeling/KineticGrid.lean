import KineticGrid.Document.Schema
import KineticGrid.Domain.Basic
import KineticGrid.Message.World
import KineticGrid.Proofs.Document.Settings
import KineticGrid.Proofs.Domain.Builds
import KineticGrid.Proofs.Domain.Completion
import KineticGrid.Proofs.Domain.Exactness
import KineticGrid.Proofs.Domain.History
import KineticGrid.Proofs.Ghost.Detection
import KineticGrid.Proofs.Ghost.Shipping
import KineticGrid.Proofs.Ghost.Transaction
import KineticGrid.Proofs.Message.Sums
import KineticGrid.Proofs.Sweep.Matching
import KineticGrid.Proofs.Space.Partition
import KineticGrid.Proofs.Sweep.Scratch
import KineticGrid.Proofs.Sweep.Grouping
import KineticGrid.Proofs.Ghost.Refusal
import KineticGrid.Proofs.Space.Order
import KineticGrid.Proofs.Sweep.Readings
import KineticGrid.Proofs.Sweep.Tables
import KineticGrid.Proofs.Sweep.Ungrouped
import KineticGrid.Proofs.Message.Canonical
import KineticGrid.Proofs.Domain.Conservation
import KineticGrid.Proofs.Sweep.Sample
import KineticGrid.Proofs.Sweep.Variance
