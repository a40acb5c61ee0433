import Sealed.Network
import Sealed.ConcurrentInitialize
import Sealed.LoadProperties
import Sealed.AtomicInitialize
import Sealed.SenderTrustProperties
import Sealed.ContactRootProperties
import Sealed.PaddingProperties
import Sealed.ContactLookups
import Sealed.ConcurrentTrust
import Sealed.AtomicTrust
import Sealed.UnlockPlacement
import Sealed.OpenCommands
import Sealed.CommandSequences
import Sealed.ReaderCalls
import Sealed.FingerprintProperties
import Sealed.OptionProperties
import Sealed.ShownLetters
import Sealed.ConcurrentListing
import Sealed.SessionProperties
import Sealed.Correspondence
import Sealed.ConcurrentCommands
