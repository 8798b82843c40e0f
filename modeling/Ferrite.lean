import Ferrite.Exec.BooleanRuns
import Ferrite.Exec.Joins
import Ferrite.Exec.Like
import Ferrite.Plan.Calendar
import Ferrite.Protocol.Confidential
import Ferrite.Protocol.Guesses
import Ferrite.Protocol.Rounds
import Ferrite.Protocol.Sending
import Ferrite.Protocol.Suspension
import Ferrite.Server.DeclaredKeys
import Ferrite.Server.ErrorReplies
import Ferrite.Server.Placeholders
import Ferrite.Storage.Checksum
import Ferrite.Storage.CommitBitmap
import Ferrite.Storage.FailedCommit
import Ferrite.Storage.Interrupted
import Ferrite.Storage.RefusedInsert
import Ferrite.Storage.Uniqueness
