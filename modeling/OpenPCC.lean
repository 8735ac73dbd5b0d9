import OpenPCC.Httpretry.Proof.RewindableBody
import OpenPCC.Anonpay.Proof.Tickets
import OpenPCC.Anonpay.Proof.DoubleSpend
import OpenPCC.Anonpay.Proof.Locks
import OpenPCC.Anonpay.Proof.Enumeration
import OpenPCC.Anonpay.Proof.Transport
import OpenPCC.Anonpay.Proof.WithdrawCall
import OpenPCC.Anonpay.Proof.LockCall
import OpenPCC.Cmdline.Proof.Render
import OpenPCC.Attest.Proof.Replay
import OpenPCC.Attest.Proof.Verify
import OpenPCC.Router.Proof.ProxyBody
import OpenPCC.Router.Proof.Evaluation
import OpenPCC.Router.Proof.ClusterMember
import OpenPCC.Gossip.Proof.Packet
import OpenPCC.Gossip.Proof.Transport
import OpenPCC.Delay.Proof.Pool
import OpenPCC.Work.Proof.ParallelLive
import OpenPCC.Work.Proof.Pipeline
import OpenPCC.Work.Proof.Pool
import OpenPCC.Wallet.Proof.Expiry
import OpenPCC.Wallet.Proof.Consolidate
import OpenPCC.Wallet.Proof.Payment
import OpenPCC.Wallet.Proof.Prefetch
import OpenPCC.Wallet.Proof.Route
import OpenPCC.Wallet.Proof.Serve
import OpenPCC.Wallet.Proof.Unspent
import OpenPCC.Wallet.Proof.Split
import OpenPCC.Auth.Proof.Credentials
import OpenPCC.Auth.Proof.Client
import OpenPCC.Gateway.Proof.KeyChoice
import OpenPCC.App.Proof.Run
import OpenPCC.App.Proof.Multi
import OpenPCC.Tpm.Proof.Hpke
import OpenPCC.Client.Proof.CachedNodeFinder
import OpenPCC.Client.Proof.Shuffle
import OpenPCC.Client.Proof.Exchange
import OpenPCC.Transparency.Proof.StatementKey
import OpenPCC.Transparency.Proof.BundleFinder
import OpenPCC.Client.Proof.RoundTrip
