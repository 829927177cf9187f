import Tariff.Engine.Seed
import Tariff.Json.Reader
import Tariff.Proofs.Coherence
import Tariff.Proofs.Tax
import Tariff.Proofs.Precedence
import Tariff.Proofs.Replay
import Tariff.Proofs.Amounts
import Tariff.Proofs.Faults
import Tariff.Proofs.Atomicity
import Tariff.Proofs.Interleaving
import Tariff.Proofs.Recency
import Tariff.Proofs.Locality
import Tariff.Proofs.ReadYourWrites
import Tariff.Proofs.Versions
import Tariff.Proofs.StoredRules
import Tariff.Proofs.Integrity
import Tariff.Proofs.Transactions
import Tariff.Proofs.Orders
import Tariff.Proofs.LinePrices
import Tariff.Proofs.Isolation
import Tariff.Proofs.Explanation
import Tariff.Proofs.TaxExtraction
import Tariff.Proofs.Actions
import Tariff.Proofs.Discounts
import Tariff.Proofs.Monotonicity
import Tariff.Proofs.Scales
import Tariff.Proofs.Comparisons
import Tariff.Proofs.Weights
import Tariff.Proofs.Batches
import Tariff.Proofs.Repetition
import Tariff.Proofs.Redrafting
import Tariff.Proofs.LineOrder
import Tariff.Proofs.Reseeding
import Tariff.Proofs.PricedOperation
import Tariff.Proofs.Counts
import Tariff.Proofs.Values
import Tariff.Proofs.Rereading
import Tariff.Proofs.Capacity
import Tariff.Proofs.Operands
import Tariff.Proofs.Configured
