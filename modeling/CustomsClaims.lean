import CustomsClaims.Main
import CustomsClaims.Proofs.Http.Refusals
import CustomsClaims.Proofs.Http.Unreadable
import CustomsClaims.Proofs.Search.Selection
import CustomsClaims.Proofs.Store.Clients
import CustomsClaims.Proofs.Store.Readable
import CustomsClaims.Proofs.Store.Refinement
import CustomsClaims.Proofs.Store.Replacement
import CustomsClaims.Sample.Generation
import CustomsClaims.Store.Memory
import CustomsClaims.Proofs.Number.Grid
import CustomsClaims.Proofs.Amount.Reread
import CustomsClaims.Proofs.Amount.Settling
import CustomsClaims.Proofs.Claim.Settled
import CustomsClaims.Proofs.Store.Listings
import CustomsClaims.Proofs.Store.Success
import CustomsClaims.Proofs.Tariff.Expression
import CustomsClaims.Proofs.Tariff.Acceptance
import CustomsClaims.Proofs.Store.Log
import CustomsClaims.Proofs.Http.AnswerLog
import CustomsClaims.Proofs.Calendar.Windows
import CustomsClaims.Proofs.Claim.Members
import CustomsClaims.Proofs.Amount.Accuracy
import CustomsClaims.Proofs.Store.Rewriting
import CustomsClaims.Proofs.Store.Classification
import CustomsClaims.Proofs.Search.Building
import CustomsClaims.Proofs.Tariff.Lists
import CustomsClaims.Proofs.Http.Reading
