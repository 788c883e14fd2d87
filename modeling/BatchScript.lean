import BatchScript.Main
import BatchScript.Proofs.Command.Forms
import BatchScript.Proofs.Page.Batches
import BatchScript.Proofs.Redirection.Clauses
import BatchScript.Proofs.Script.Heads
import BatchScript.Proofs.Script.Jumps
import BatchScript.Proofs.Script.LeftOver
import BatchScript.Proofs.Script.Retries
import BatchScript.Proofs.Token.Blanks
import BatchScript.Proofs.Token.Returns
import BatchScript.Proofs.Token.Stepwise
