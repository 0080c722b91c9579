import OiCorridor.Proofs.Ledger
import OiCorridor.Proofs.Execute
import OiCorridor.Proofs.Partitions
import OiCorridor.Proofs.StopRace
import OiCorridor.Proofs.GatewayFilter
import OiCorridor.Proofs.GatewayAudit
import OiCorridor.Proofs.ConsentReplay
import OiCorridor.Proofs.HandlerAudit
import OiCorridor.Proofs.Revocation
import OiCorridor.Proofs.Decide
import OiCorridor.Proofs.Ingress
import OiCorridor.Proofs.Decimal
import OiCorridor.Proofs.HashInputs
import OiCorridor.Proofs.JsonRoundTrip
import OiCorridor.Proofs.Egress
import OiCorridor.Proofs.RateLimit
import OiCorridor.Proofs.JsonGrammar
import OiCorridor.Proofs.KernelAudit
import OiCorridor.Proofs.AuditFile
import OiCorridor.Proofs.Corridor
