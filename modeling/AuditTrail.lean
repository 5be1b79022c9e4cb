import AuditTrail.Main
import AuditTrail.Pager.Script
import AuditTrail.Proofs.Calendar.Instant
import AuditTrail.Proofs.Calendar.ReadBack
import AuditTrail.Proofs.Calendar.Telling
import AuditTrail.Proofs.Command.Handlers
import AuditTrail.Proofs.Command.Refusal
import AuditTrail.Proofs.Json.RoundTrip
import AuditTrail.Proofs.Layout.Comparison
import AuditTrail.Proofs.Layout.Fairness
import AuditTrail.Proofs.Layout.ReadBack
import AuditTrail.Proofs.Layout.Records
import AuditTrail.Proofs.Layout.Rectangle
import AuditTrail.Proofs.Number.Truncation
import AuditTrail.Proofs.Pager.Interleaving
import AuditTrail.Proofs.Pager.Offers
import AuditTrail.Proofs.Render.Bounded
import AuditTrail.Proofs.Render.Faltering
import AuditTrail.Proofs.Render.Leaving
import AuditTrail.Proofs.Render.Modes
import AuditTrail.Proofs.Render.Release
import AuditTrail.Proofs.Render.TableWidth
import AuditTrail.Proofs.Render.Warning
import AuditTrail.Proofs.Source.Continued
import AuditTrail.Proofs.Source.Conversation
import AuditTrail.Proofs.Table.Extension
import AuditTrail.Proofs.Table.Subject
import AuditTrail.Proofs.Tree.Arrangement
