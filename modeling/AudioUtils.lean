import AudioUtils.Spec.AtomicStack
import AudioUtils.Spec.ThreadInfo
import AudioUtils.Spec.Mutex
import AudioUtils.Spec.System
import AudioUtils.Spec.Registry
import AudioUtils.Proof.Stack
import AudioUtils.Proof.HeldStack
import AudioUtils.Proof.Counters
import AudioUtils.Proof.Registry
import AudioUtils.Proof.ScopedLock
import AudioUtils.Spec.TimedLock
import AudioUtils.Proof.TimedLock
import AudioUtils.Spec.FdToString
import AudioUtils.Spec.Spdif
import AudioUtils.Proof.FdToString
import AudioUtils.Proof.Spdif
import AudioUtils.Proof.SpdifLoop
import AudioUtils.Proof.SpdifBytes
import AudioUtils.Proof.SpdifBurst
import AudioUtils.Proof.SpdifStream
import AudioUtils.Proof.SpdifSplit
import AudioUtils.Proof.SpdifSend
import AudioUtils.Spec.Deadlock
import AudioUtils.Proof.Deadlock
import AudioUtils.Proof.DeadlockWalk
import AudioUtils.Proof.Descriptors
import AudioUtils.Proof.DeadlockSystem
