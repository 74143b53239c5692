import Reckon.Evaluator
import Reckon.Grammar
import Reckon.Main
import Reckon.Proofs.Acceptance
import Reckon.Proofs.Gaps
import Reckon.Proofs.Recency
import Reckon.Proofs.Respelling
import Reckon.Proofs.Spelling
import Reckon.Proofs.Conservation
import Reckon.Proofs.NormalForm
import Reckon.Proofs.Outcomes
import Reckon.Peg
import Reckon.Proofs.Segmentation
import Reckon.Proofs.Ranges
import Reckon.Proofs.Substitution
import Reckon.Proofs.Records
import Reckon.Proofs.Foreign
import Reckon.Proofs.Splicing
import Reckon.Proofs.PendingStack
import Reckon.Proofs.WholeWords
